import ReversePolish.Session

/-!
Commands of a session: lines that start with a colon.

A line is first read into a command, or into the reason why it is none, and then carried out. A
command changes at most one thing: a variable, the stack, or the strictness of the session.
-/

namespace ReversePolish

/-- What a line asks for. -/
inductive Command where
  | nothing
  | quit
  | help
  | explain (name : String)
  | stack
  | clear
  | vars
  | operators
  | set (name : String) (v : Value)
  /-- Delete a variable; the name is as it was written. -/
  | delete (written : String)
  | strict (on : Bool)
  deriving DecidableEq, Repr

/-- Why a line asks for nothing that can be done. -/
inductive CommandError where
  | setUsage
  | deleteUsage
  | strictUsage
  | badValue (text : String)
  | unknown (name : String)
  | noOperator (name : String)
  | noVariable (written : String)
  deriving DecidableEq, Repr

/-- The words for a line that cannot be carried out. -/
def CommandError.message : CommandError → String
  | .setUsage => "usage: :set name value"
  | .deleteUsage => "usage: :del name"
  | .strictUsage => "usage: :strict on|off"
  | .badValue text => "bad value " ++ Text.quote text
  | .unknown name => "unknown command :" ++ name ++ " (try :help)"
  | .noOperator name => "no operator named " ++ Text.quote name
  | .noVariable written => "no variable named " ++ Text.quote written

namespace Command

/-- The words of a command line, without the colon. -/
def fields (line : String) : List String :=
  Text.words (Text.dropLeading ':' (Text.trim line))

/-- Read `name value`. -/
def setting : List String → Except CommandError Command
  | [name, text] =>
    match Value.read? text with
    | some v => .ok (.set (Text.dropLeading Token.sigil name) v)
    | none => .error (.badValue text)
  | _ => .error .setUsage

/-- Read a command from its words. -/
def ofFields : List String → Except CommandError Command
  | [] => .ok .nothing
  | verb :: arguments =>
    match verb with
    | "q" | "quit" | "exit" => .ok .quit
    | "h" | "help" =>
      match arguments with
      | [] => .ok .help
      | name :: _ => .ok (.explain name)
    | "stack" => .ok .stack
    | "clear" => .ok .clear
    | "vars" => .ok .vars
    | "ops" => .ok .operators
    | "set" => setting arguments
    | "del" =>
      match arguments with
      | [written] => .ok (.delete written)
      | _ => .error .deleteUsage
    | "strict" =>
      match arguments with
      | ["on"] => .ok (.strict true)
      | ["off"] => .ok (.strict false)
      | _ => .error .strictUsage
    | name => .error (.unknown name)

/-- Read a command line. The colon may be missing. -/
def parse (line : String) : Except CommandError Command :=
  ofFields (fields line)

/-- The text that lists the commands. -/
def helpText : String :=
  "expressions are evaluated against a stack kept between lines\n" ++
  "  :stack              show the stack, top first\n" ++
  "  :clear              empty the stack\n" ++
  "  :vars               list variables\n" ++
  "  :set name value     set a variable\n" ++
  "  :del name           delete a variable\n" ++
  "  :ops                list operators\n" ++
  "  :help [operator]    this text, or help for one operator\n" ++
  "  :strict on|off      fail on unknown $variables instead of pushing 0\n" ++
  "  :quit               leave\n"

end Command

namespace Session

/-- Change the context of the session. -/
def update (s : Session) (f : Context → Context) : Session :=
  { s with world := s.world.modify home f }

/-- Carry out a command on the context of a session. -/
def runOn (s : Session) (c : Context) : Command → Except CommandError (Session × String)
  | .nothing | .quit => .ok (s, "")
  | .help => .ok (s, Command.helpText)
  | .explain name =>
    match c.operators.lookup? name with
    | some op => .ok (s, s.palette.explain op)
    | none => .error (.noOperator name)
  | .stack => .ok (s, s.palette.stack true c.stack)
  | .clear => .ok (s.update (fun c => { c with stack := [] }), "")
  | .vars => .ok (s, s.palette.vars c.vars)
  | .operators => .ok (s, Palette.operators c.operators.names)
  | .set name v => .ok (s.update (·.setVariable name v), "")
  | .delete written =>
    let name := Text.dropLeading Token.sigil written
    if c.vars.contains name then
      .ok (s.update (fun c => { c with vars := c.vars.erase name }), "")
    else .error (.noVariable written)
  | .strict on =>
    .ok ({ s with strict := on },
      s.palette.notice ("strict variables " ++ (if on then "on" else "off")))

/-- Carry out a command line; whether it asks to leave comes last. -/
def command (s : Session) (line : String) : Session × Output × Bool :=
  match s.context?, Command.parse line with
  | none, _ => (s, .empty, false)
  | _, .error e => (s, ⟨"", s.palette.failure e.message⟩, false)
  | some c, .ok cmd =>
    match s.runOn c cmd with
    | .ok (s, shown) => (s, ⟨shown, ""⟩, cmd = .quit)
    | .error e => (s, ⟨"", s.palette.failure e.message⟩, false)

end Session

end ReversePolish
