import ReversePolish.Session.Command
import ReversePolish.Text.Fragment

/-!
Lines of a session that were cut inside a character.

A word that was cut is no literal, and there is no operator, variable or command of its name. In an
expression it is reached like any other token, after those before it; with a sigil in front it still
refers to a variable, which is never set.
-/

namespace ReversePolish.Session

/-- Show a failed expression. -/
def showFault (s : Session) (message : String) : Session × Output × Bool :=
  ({ s with failed := true }, ⟨"", s.palette.failure message⟩, false)

/-- Handle a token that was cut, at some place of an expression, and show the stack or the
failure. -/
def evalCut (s : Session) (cut : Text.Fragment) (position : Nat) (numbered : Bool) :
    Session × Output × Bool :=
  let w := s.world.modify home (fun c => { c with lastToken := cut.shown })
  let w := callHook refuseEvaluation home cut.shown w
  if cut.startsWithChar Token.sigil && !s.strict then
    let (s, traces) := { s with world := w.modify home (·.push 0) }.showTraces
    (s, traces ++ ⟨s.palette.stack numbered s.stack, ""⟩, true)
  else
    let reason := Status.unknownToken
    let w := w.modify home (fun c => { c with status := reason })
    let (s, traces) := { s with world := w }.showTraces
    let (s, output, ok) := s.showFault (reason.messageAt position cut.quote)
    (s, traces ++ output, ok)

/-- Evaluate an expression and show the stack, or the failure; whether it succeeded comes last. -/
def evalFragment (s : Session) (line : Text.Fragment) (numbered : Bool) :
    Session × Output × Bool :=
  match line.whole? with
  | some expression => s.eval expression numbered
  | none =>
    let (start, cut) := line.firstCut
    let (s, traces, reply) := s.call (.evaluate start s.strict)
    let (s, output, ok) :=
      match reply.error? with
      | some message => s.showFault message
      | none =>
        if s.context?.any Context.halted then (s, ⟨s.palette.stack numbered s.stack, ""⟩, true)
        else s.evalCut cut (Token.tokenize start).length numbered
    (s, traces ++ output, ok)

/-- Why a command cannot be carried out because of its last word, which was cut; `fields` are the
words before it. -/
def cutMessage? (cut : Text.Fragment) : (fields : List String) → Option String
  | ["h"] | ["help"] => some ("no operator named " ++ cut.quote)
  | ["set", _] => some ("bad value " ++ cut.quote)
  | ["del"] => some ("no variable named " ++ cut.quote)
  | _ => none

/-- Carry out a command line; whether it asks to leave comes last. -/
def commandFragment (s : Session) (line : Text.Fragment) : Session × Output × Bool :=
  match line.whole? with
  | some text => s.command text
  | none =>
    let (start, cut) := line.firstCut
    match cutMessage? cut (Command.fields start) with
    | some message => (s, ⟨"", s.palette.failure message⟩, false)
    | none => s.command line.shown

end ReversePolish.Session
