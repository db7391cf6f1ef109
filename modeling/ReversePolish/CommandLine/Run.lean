import ReversePolish.CommandLine.Definition
import ReversePolish.CommandLine.Files
import ReversePolish.CommandLine.Prompt
import ReversePolish.Config
import ReversePolish.Json.Variables

/-!
Runs of the program: from the arguments and what is found around them to what is written and the
exit code.

A run first gets ready: options, configuration, log level, variables and the source of expressions,
in this order, and the first of them that fails ends it before anything is evaluated. Then the
expressions are evaluated, and the code says whether one of them failed.
-/

namespace ReversePolish.CommandLine

/-- What a run finds around it. -/
structure Environment where
  /-- What stands on the standard input. -/
  input : String
  /-- Whether the standard input is a terminal. -/
  terminal : Bool
  /-- Whether output can have colours. -/
  colours : Bool
  /-- The home directory, if there is one. -/
  home : Option String
  read : String → Except FileError String

/-- What a run comes to. -/
structure Report where
  code : Nat
  output : Output
  /-- The new contents of the history file, if it is written. -/
  history : Option String
  deriving DecidableEq, Repr

/-! ## Failures before anything is evaluated -/

/-- Why a run does not get ready. -/
inductive StartError where
  | options (e : OptionError)
  | configFile (e : FileError)
  | config (path : String) (e : Config.Error)
  | logLevel (level : String)
  | jsonFile (path : String) (e : FileError)
  | json (path : String) (e : JsonValue.LoadError)
  | definition (e : DefinitionError)
  | expressionFile (e : FileError)

namespace StartError

/-- The words for a run that does not get ready. -/
def message : StartError → String
  | .options e => e.message
  | .configFile e => "reading config: " ++ e.message
  | .config path e => path ++ ": " ++ e.message
  | .logLevel level => "bad log level " ++ Text.quote level
  | .jsonFile path e => "reading " ++ path ++ ": " ++ e.message
  | .json path e => path ++ ": " ++ e.message
  | .definition e => e.message
  | .expressionFile e => e.message

/-- The exit code: two if the program was asked for something that it does not have. -/
def code : StartError → Nat
  | .options _ | .logLevel _ => 2
  | _ => 1

end StartError

/-- The line of a message about the run itself. -/
def complaint (message : String) : String :=
  programName ++ ": " ++ message ++ "\n"

/-- The report on a run that did not get ready. Bad options are answered with an explanation. -/
def StartError.report (e : StartError) : Report :=
  let explanation :=
    match e with
    | .options _ => usage ++ "\n"
    | _ => ""
  ⟨e.code, ⟨"", complaint e.message ++ explanation⟩, none⟩

/-! ## Getting ready -/

/-- The name of the configuration file in the home directory. -/
def configName : String := ".rpn.yaml"

/-- The name of the history file in the home directory. -/
def historyName : String := ".rpn_history"

/-- The path of a file in the home directory. -/
def Environment.inHome? (env : Environment) (name : String) : Option String :=
  env.home.map (joinName · name)

/-- The configuration of a file. -/
def readConfig (path text : String) : Except StartError Config :=
  (Config.parse text).mapError (.config path)

/-- The configuration of a run. The file in the home directory may be missing, one that was asked
for may not. -/
def loadConfig (env : Environment) (o : Options) : Except StartError Config :=
  if o.config ≠ "" then
    match env.read o.config with
    | .ok text => readConfig o.config text
    | .error e => .error (.configFile e)
  else
    match env.inHome? configName with
    | none => .ok {}
    | some path =>
      match env.read path with
      | .ok text => readConfig path text
      | .error e => if e.problem = .notFound then .ok {} else .error (.configFile e)

/-- The log levels. -/
def logLevels : List String :=
  ["Debug", "Verbose", "Info", "Warning", "Error", "Critical", "Fatal"]

/-- A log level is written as it is listed, or in small letters throughout. -/
def isLogLevel (level : String) : Bool :=
  logLevels.contains level || (logLevels.map String.toLower).contains level

/-- The variables that a JSON file holds, if one is configured. -/
def jsonVariables (env : Environment) (c : Config) : Except StartError (List (String × Value)) :=
  if c.jsonFile = "" then .ok []
  else
    match env.read c.jsonFile with
    | .error e => .error (.jsonFile c.jsonFile e)
    | .ok document =>
      (JsonValue.loadVariables document c.jsonQuery).mapError (.json c.jsonFile)

/-- The variables of definitions, in their order. -/
def definedVariables : List String → Except StartError (List (String × Value))
  | [] => .ok []
  | text :: rest =>
    match parseDefinition text with
    | .error e => .error (.definition e)
    | .ok entry => (definedVariables rest).map (entry :: ·)

/-- The variables that a session starts with. Definitions count more than JSON, and JSON more than
the configuration. -/
def startingVariables (env : Environment) (c : Config) (defines : List String) :
    Except StartError Variables :=
  match jsonVariables env c with
  | .error e => .error e
  | .ok fromJson =>
    match definedVariables defines with
    | .error e => .error e
    | .ok defined => .ok (((c.seed .empty).setAll fromJson).setAll defined)

/-- The session of a configuration. -/
def newSession (env : Environment) (c : Config) (defines : List String) :
    Except StartError Session :=
  match startingVariables env c defines with
  | .error e => .error e
  | .ok vars =>
    let options := { c.contextOptions with hook := if c.trace then some .trace else none }
    .ok
      { world := ⟨[{ Context.new options with vars := vars }], none, []⟩
        strict := c.strict
        palette := ⟨env.colours && c.colorEnabled⟩
        failed := false }

/-- Where the expressions of a run come from. -/
inductive Source where
  | expressions (expressions : List String)
  | lines (text : String)
  | prompt
  deriving DecidableEq, Repr

/-- The source that the options ask for; without options it is the standard input, with a prompt if
that is a terminal. -/
def findSource (env : Environment) (o : Options) : Except StartError Source :=
  if o.expressions ≠ [] then .ok (.expressions o.expressions)
  else if o.file = "-" then .ok (.lines env.input)
  else if o.file ≠ "" then
    match env.read o.file with
    | .ok text => .ok (.lines text)
    | .error e => .error (.expressionFile e)
  else .ok (if env.terminal then .prompt else .lines env.input)

/-- Get ready: the session and the source of its expressions. -/
def prepare (env : Environment) (o : Options) : Except StartError (Session × Source) :=
  match loadConfig env o with
  | .error e => .error e
  | .ok file =>
    let c := file.apply o
    if isLogLevel c.logLevel then
      match newSession env c o.defines with
      | .error e => .error e
      | .ok s =>
        match findSource env o with
        | .error e => .error e
        | .ok source => .ok (s, source)
    else .error (.logLevel c.logLevel)

/-- The files that a run may read, as far as those that `env` can read tell. -/
def wantedFiles (env : Environment) (o : Options) : List String :=
  let json :=
    match loadConfig env o with
    | .ok c => (c.apply o).jsonFile
    | .error _ => ""
  ([o.config, o.file, json] ++ (env.inHome? configName).toList ++
    (env.inHome? historyName).toList).filter (fun name => name ≠ "" && name ≠ "-")

/-! ## Evaluating -/

/-- The exit code of a session: one if some expression has failed. -/
def exitCode (s : Session) : Nat :=
  if s.failed then 1 else 0

/-- The history that a prompt starts with. One that cannot be read is empty. -/
def loadHistory (env : Environment) : History :=
  match env.inHome? historyName with
  | none => .empty
  | some path =>
    match env.read path with
    | .ok text => .load text
    | .error _ => .empty

/-- Evaluate the expressions of a source. -/
def evaluateSource (env : Environment) (s : Session) : Source → Report
  | .expressions expressions =>
    let (s, output) := s.evalAll expressions
    ⟨exitCode s, output, none⟩
  | .lines text =>
    let (s, output, complete) := s.evalLines text
    if complete then ⟨exitCode s, output, none⟩
    else ⟨1, output ++ ⟨"", complaint Session.tooLongMessage⟩, none⟩
  | .prompt =>
    let (p, output) := Prompt.run ⟨s, loadHistory env⟩ (Prompt.lines env.input)
    ⟨0, ⟨s.palette.notice welcome, ""⟩ ++ output, env.home.map (fun _ => p.history.render)⟩

/-- How a run begins: with its end, or with a session and its source. -/
inductive Start where
  | finished (r : Report)
  | ready (s : Session) (source : Source)

/-- Begin a run. -/
def start (env : Environment) (arguments : List String) : Start :=
  match Options.parse arguments with
  | .error e => .finished (StartError.options e).report
  | .ok o =>
    if o.help then .finished ⟨0, ⟨usage ++ "\n", ""⟩, none⟩
    else
      match prepare env o with
      | .error e => .finished e.report
      | .ok (s, source) => .ready s source

/-- Run the program. -/
def run (env : Environment) (arguments : List String) : Report :=
  match start env arguments with
  | .finished r => r
  | .ready s source => evaluateSource env s source

end ReversePolish.CommandLine
