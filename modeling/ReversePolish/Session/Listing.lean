import ReversePolish.Context

/-!
What a session shows: stacks, variables, operators and their explanations, notices, failures and
traces, in colour if the terminal has any.

Output goes to two places, one for results and one for failures and traces; `Output` holds what was
written to each.
-/

namespace ReversePolish

/-- Text written to the two outputs. -/
structure Output where
  out : String
  err : String
  deriving DecidableEq, Repr

namespace Output

def empty : Output := ⟨"", ""⟩

instance : Append Output := ⟨fun a b => ⟨a.out ++ b.out, a.err ++ b.err⟩⟩

end Output

/-- The roles of coloured text. -/
inductive Ink where
  | value
  | index
  | failure
  | notice
  deriving DecidableEq, Repr

/-- The terminal codes of a role: cyan, faint, bold red and green. -/
def Ink.codes : Ink → String
  | .value => "36"
  | .index => "2"
  | .failure => "31;1"
  | .notice => "32"

/-- How output is shown. -/
structure Palette where
  coloured : Bool
  deriving DecidableEq, Repr

namespace Palette

/-- A text in the colour of a role. -/
def paint (p : Palette) (ink : Ink) (s : String) : String :=
  if p.coloured then "\x1b[" ++ ink.codes ++ "m" ++ s ++ "\x1b[0m" else s

/-- A number with blanks in front of it up to three characters. -/
def column (n : Nat) : String :=
  let digits := Nat.toDigits 10 n
  String.ofList (List.replicate (3 - digits.length) ' ' ++ digits)

/-- The line of a value; its number counts from the top. -/
def stackLine (p : Palette) (numbered : Bool) (i : Nat) (v : Value) : String :=
  (if numbered then p.paint .index (column i ++ ": ") else "") ++ p.paint .value (Value.render v) ++
    "\n"

/-- The values of a stack, top first, one a line. -/
def stack (p : Palette) (numbered : Bool) (values : List Value) : String :=
  String.join (values.mapIdx (p.stackLine numbered))

/-- The variables of a table, one a line. -/
def vars (p : Palette) (t : Variables) : String :=
  String.join (t.entries.map (fun entry =>
    String.singleton Token.sigil ++ entry.1 ++ " = " ++ p.paint .value (Value.render entry.2) ++
      "\n"))

/-- The names of the operators on one line. -/
def operators (names : List String) : String :=
  String.intercalate " " names ++ "\n"

/-- The explanation of an operator. -/
def explain (p : Palette) (op : Operator) : String :=
  let h := op.help
  p.paint .notice op.name ++ "  (arity " ++ toString op.arity ++ ")\n" ++
    (if h.input ≠ "" ∨ h.output ≠ "" then "  " ++ h.input ++ " -> " ++ h.output ++ "\n" else "") ++
    (if h.action ≠ "" then "  " ++ h.action ++ "\n" else "")

/-- The line of a failure. -/
def failure (p : Palette) (message : String) : String :=
  p.paint .failure ("error: " ++ message ++ "\n")

/-- The line of a notice. -/
def notice (p : Palette) (message : String) : String :=
  p.paint .notice (message ++ "\n")

/-- A text with blanks behind it up to a number of characters. -/
def padRight (width : Nat) (s : String) : String :=
  s ++ String.ofList (List.replicate (width - s.length) ' ')

/-- The line of a traced token. -/
def trace (p : Palette) (token : String) (depth : Nat) : String :=
  p.paint .index ("  . " ++ padRight 12 token ++ " depth=" ++ toString depth ++ "\n")

end Palette

end ReversePolish
