import ReversePolish.Evaluation
import ReversePolish.Session.Listing
import ReversePolish.Text.Line

/-!
Sessions: expressions evaluated one after the other on one context, with their results shown.

The context of a session is the first of its world. The stack and the variables stay from one
expression to the next, and a failed expression is remembered for the end.
-/

namespace ReversePolish

/-- A calculator and how it is used. -/
structure Session where
  world : World
  /-- Whether unset variables are unknown tokens. -/
  strict : Bool
  palette : Palette
  /-- Whether some expression has failed. -/
  failed : Bool

/-- Move the traces out of a journal, the first one first. -/
def World.takeTraces (w : World) : List (String × Nat) × World :=
  let traces := w.journal.reverse.filterMap (fun
    | .traced token depth => some (token, depth)
    | _ => none)
  let others := w.journal.filter (fun
    | .traced .. => false
    | _ => true)
  (traces, { w with journal := others })

namespace Session

/-- The context that the session evaluates on. -/
def home : Nat := 0

def context? (s : Session) : Option Context :=
  s.world.get? home

/-- Show the traces that a journal holds. -/
def showTraces (s : Session) : Session × Output :=
  let (traces, w) := s.world.takeTraces
  ({ s with world := w }, ⟨"", String.join (traces.map (fun t => s.palette.trace t.1 t.2))⟩)

/-- Perform a call on the context of the session. -/
def call (s : Session) (c : Call) : Session × Output × Reply :=
  let (w, reply) := s.world.call home c
  let (s, output) := { s with world := w }.showTraces
  (s, output, reply)

/-- The values on the stack, top first. -/
def stack (s : Session) : List Value :=
  (s.context?.map Context.stack).getD []

/-- Evaluate an expression and show the stack, or the failure; whether it succeeded comes last. -/
def eval (s : Session) (expression : String) (numbered : Bool) : Session × Output × Bool :=
  let (s, traces, reply) := s.call (.evaluate expression s.strict)
  match reply.error? with
  | some message => ({ s with failed := true }, traces ++ ⟨"", s.palette.failure message⟩, false)
  | none => (s, traces ++ ⟨s.palette.stack numbered s.stack, ""⟩, true)

/-- Evaluate several expressions. -/
def evalAll (s : Session) (expressions : List String) : Session × Output :=
  expressions.foldl
    (fun (s, output) expression =>
      let (s, more, _) := s.eval expression false
      (s, output ++ more))
    (s, .empty)

/-- A line of a batch without the blanks around it, unless it is blank or a comment. -/
def batchLine? (line : String) : Option String :=
  let line := Text.trim line
  if line.toList.isEmpty || Text.startsWithChar '#' line then none else some line

/-- The first length in bytes at which a line of a batch is too long. -/
def lineLimit : Nat := 65536

/-- Evaluate the lines of a text; whether they could all be read comes last. A line that is too long
ends the reading. -/
def evalLines (s : Session) (text : String) : Session × Output × Bool :=
  let (lines, tooLong) := Text.boundedLines lineLimit text
  let (s, output) := s.evalAll (lines.filterMap batchLine?)
  (s, output, !tooLong)

/-- The words for a line that is too long. -/
def tooLongMessage : String :=
  "bufio.Scanner: token too long"

end Session

end ReversePolish
