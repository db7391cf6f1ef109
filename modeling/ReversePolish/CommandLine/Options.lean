import ReversePolish.Text.Quoted

/-!
Command line options.

An option is a letter behind a dash. Letters can be gathered behind one dash; a letter that takes a
value ends the gathering, and its value is what follows it in the argument or, if nothing does, the
next argument, whatever that is. Options end at the first argument that is no option, or behind
`--`.

Reading is in two parts: the arguments become a list of occurrences, and the occurrences become
`Options`.
-/

namespace ReversePolish.CommandLine

/-- The name under which the program speaks of itself. -/
def programName : String := "rpn"

/-- Options without a value. -/
inductive Switch where
  | help
  | strict
  | trace
  deriving DecidableEq, Repr

/-- Options with a value. -/
inductive Setting where
  | config
  | define
  | expression
  | file
  | jsonFile
  | jsonQuery
  | logLevel
  deriving DecidableEq, Repr

def Switch.letter : Switch → Char
  | .help => 'h'
  | .strict => 's'
  | .trace => 't'

def Setting.letter : Setting → Char
  | .config => 'c'
  | .define => 'D'
  | .expression => 'e'
  | .file => 'f'
  | .jsonFile => 'j'
  | .jsonQuery => 'q'
  | .logLevel => 'v'

/-- An option as it occurs on a command line. -/
inductive Occurrence where
  | switch (s : Switch)
  | setting (s : Setting) (value : String)
  deriving DecidableEq, Repr

/-- Why a command line is refused. -/
inductive OptionError where
  | unknown (letter : Char)
  | missingValue (letter : Char)
  | unexpected (argument : String)
  | expressionAndFile
  deriving DecidableEq, Repr

/-- The words for a refused command line. -/
def OptionError.message : OptionError → String
  | .unknown letter => programName ++ ": unknown option -" ++ String.singleton letter
  | .missingValue letter => programName ++ ": expected argument for -" ++ String.singleton letter
  | .unexpected argument => "unexpected argument " ++ Text.quote argument
  | .expressionAndFile => "-e and -f are mutually exclusive"

/-- The option of a letter. -/
def optionOf? (letter : Char) : Option (Switch ⊕ Setting) :=
  match [Switch.help, .strict, .trace].find? (·.letter = letter) with
  | some s => some (.inl s)
  | none =>
    ([Setting.config, .define, .expression, .file, .jsonFile, .jsonQuery, .logLevel].find?
      (·.letter = letter)).map .inr

/-- The options gathered behind a dash, and the last of them if it still needs its value. -/
def readCluster : List Char → Except OptionError (List Occurrence × Option Setting)
  | [] => .ok ([], none)
  | letter :: rest =>
    match optionOf? letter with
    | none => .error (.unknown letter)
    | some (.inl s) =>
      match readCluster rest with
      | .ok (found, waiting) => .ok (.switch s :: found, waiting)
      | .error e => .error e
    | some (.inr s) =>
      if rest.isEmpty then .ok ([], some s) else .ok ([.setting s (String.ofList rest)], none)

/-- The options at the start of a list of arguments, and the arguments behind them; `waiting` is an
option that takes the first argument as its value. -/
def readOccurrences (waiting : Option Setting) :
    List String → Except OptionError (List Occurrence × List String)
  | [] =>
    match waiting with
    | none => .ok ([], [])
    | some s => .error (.missingValue s.letter)
  | argument :: rest =>
    match waiting with
    | some s =>
      match readOccurrences none rest with
      | .ok (found, left) => .ok (.setting s argument :: found, left)
      | .error e => .error e
    | none =>
      if argument = "--" then .ok ([], rest)
      else
        match argument.toList with
        | '-' :: letter :: letters =>
          match readCluster (letter :: letters) with
          | .error e => .error e
          | .ok (found, waiting) =>
            match readOccurrences waiting rest with
            | .ok (more, left) => .ok (found ++ more, left)
            | .error e => .error e
        | _ => .ok ([], argument :: rest)

/-- What a command line asks for. A text that was not given is empty. -/
structure Options where
  expressions : List String := []
  defines : List String := []
  file : String := ""
  config : String := ""
  logLevel : String := ""
  jsonFile : String := ""
  jsonQuery : String := ""
  strict : Bool := false
  trace : Bool := false
  help : Bool := false
  deriving DecidableEq, Repr

namespace Options

/-- Take an occurrence into account. Expressions and definitions add up, of the others the last one
counts. -/
def add (o : Options) : Occurrence → Options
  | .switch .help => { o with help := true }
  | .switch .strict => { o with strict := true }
  | .switch .trace => { o with trace := true }
  | .setting .config v => { o with config := v }
  | .setting .define v => { o with defines := o.defines ++ [v] }
  | .setting .expression v => { o with expressions := o.expressions ++ [v] }
  | .setting .file v => { o with file := v }
  | .setting .jsonFile v => { o with jsonFile := v }
  | .setting .jsonQuery v => { o with jsonQuery := v }
  | .setting .logLevel v => { o with logLevel := v }

/-- Read a command line, without the name of the program. -/
def parse (arguments : List String) : Except OptionError Options :=
  match readOccurrences none arguments with
  | .error e => .error e
  | .ok (_, argument :: _) => .error (.unexpected argument)
  | .ok (found, []) =>
    let o := found.foldl add {}
    if o.file ≠ "" ∧ o.expressions ≠ [] then .error .expressionAndFile else .ok o

end Options

/-- The text that explains the options. -/
def usage : String :=
  "usage: rpn [options]\n" ++
  "\n" ++
  "options:\n" ++
  "  -c FILE        configuration file (default $HOME/.rpn.yaml)\n" ++
  "  -s             strict variables: unknown $names are an error\n" ++
  "  -t             trace every token\n" ++
  "  -v LEVEL       log level (debug, verbose, info, warning, error)\n" ++
  "  -D NAME=VALUE  set a variable, may be repeated\n" ++
  "  -j FILE        load variables from a JSON document\n" ++
  "  -q QUERY       jq query selecting the object within the -j document\n" ++
  "  -e EXPR        evaluate EXPR, may be repeated\n" ++
  "  -f FILE        evaluate each line of FILE (- for standard input)\n" ++
  "  -h             print this help\n" ++
  "\n" ++
  "with neither -e nor -f, an interactive prompt starts when standard input is a\n" ++
  "terminal, otherwise standard input is evaluated line by line."

end ReversePolish.CommandLine
