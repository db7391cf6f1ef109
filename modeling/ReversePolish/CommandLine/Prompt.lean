import ReversePolish.CommandLine.History
import ReversePolish.Session.Fragment

/-!
The prompt: lines that are entered one after the other, each answered before the next is asked for.

A line that starts with a colon is a command, any other line that is not blank is evaluated. The
prompt ends with the lines, or at a command that asks to leave.
-/

namespace ReversePolish.CommandLine

/-- What is asked with. -/
def promptText : String := "rpn> "

/-- The greeting. -/
def welcome : String := "rpn, :help for commands"

/-- A session at a prompt and the lines entered so far. -/
structure Prompt where
  session : Session
  history : History

namespace Prompt

/-- Carry out a line that is not blank and has no blanks around it; whether it asks to leave comes
last. -/
def handle (p : Prompt) (line : Text.Fragment) : Prompt × Output × Bool :=
  let history := p.history.enter line
  if line.startsWithChar ':' then
    let (s, output, leave) := p.session.commandFragment line
    (⟨s, history⟩, output, leave)
  else
    let (s, output, _) := p.session.evalFragment line true
    (⟨s, history⟩, output, false)

/-- Answer a line as it was entered; whether it asks to leave comes last. -/
def answer (p : Prompt) (line : Text.Fragment) : Prompt × Output × Bool :=
  let line := line.trim
  if line.isEmpty then (p, .empty, false) else p.handle line

/-- The number of bytes that are read at a time. -/
def bufferSize : Nat := 4096

/-- The lines that are entered by a text. -/
def lines (text : String) : List Text.Fragment :=
  Text.piecedLines bufferSize text

/-- Ask for lines until they end or one of them asks to leave. -/
def run (p : Prompt) : List Text.Fragment → Prompt × Output
  | [] => (p, ⟨promptText, ""⟩)
  | line :: rest =>
    let (p, output, leave) := p.answer line
    if leave then (p, ⟨promptText, ""⟩ ++ output)
    else
      let (p, more) := p.run rest
      (p, ⟨promptText, ""⟩ ++ output ++ more)

end Prompt

end ReversePolish.CommandLine
