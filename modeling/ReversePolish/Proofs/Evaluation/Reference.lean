import ReversePolish.Proofs.Evaluation.Framing
import ReversePolish.Proofs.Evaluation.Verdict

/-!
References to variables, where nobody watches.

A reference to a variable that is set pushes its value. A strict evaluation does not know a reference
to a variable that is not set, and stops there; nothing is pushed if it is the first token.
-/

namespace ReversePolish.Unaided

variable {w : World} {id : Nat} {c : Context} (unaided : Unaided w id c)
  (isOpen : c.closed = false) (idle : c.busy = false)
include unaided isOpen idle

/-- An evaluation that nobody watches starts with nothing remembered of the last one. -/
theorem evaluate_eq_finish (input : String) (strict : Bool) :
    w.evaluate id input strict =
      finish id (runTokens (evaluateAt (w.contexts.length - 1)) id strict 0 (Token.tokenize input)
        ((w.put id c.start).put id (c.start.reached "" c.stack))) := by
  rw [evaluate_eq_finish_modify unaided.present isOpen idle, World.modify_eq_put unaided.present,
    World.put_put]
  rfl

/-- A variable that is set is pushed by a reference to it, strictly or not. -/
theorem evaluate_reference {name : String} (word : Text.IsWord name)
    (unlisted : c.operators.lookup? (Token.reference name) = none) {v : Value}
    (set : c.vars.get? name = some v) (strict : Bool) :
    w.evaluate id (Token.reference name) strict =
      (w.put id { c with
        stack := v :: c.stack, status := .ok, halted := false,
        lastToken := Token.reference name }, .ok) := by
  have listed : c.start.operators.lookup? (Token.reference name) = none := unlisted
  have found : c.start.vars.get? name = some v := set
  rw [unaided.evaluate_eq_finish isOpen idle, Token.tokenize_reference word, runTokens_cons,
    unaided.start.stepToken_eq, unaided.start.handleToken_eq, Token.isLiteral_reference, listed,
    Token.variableName?_reference word]
  simp only [found, Bool.false_eq_true, if_false, runTokens]
  rw [unaided.finish_put]
  simp only [Context.release, Context.reached, Context.start, idle]

/-- A reference that comes first is not known to a strict evaluation unless its variable is set. -/
theorem evaluate_unset {input name : String} {rest : List String}
    (tokens : Token.tokenize input = Token.reference name :: rest)
    (unlisted : c.operators.lookup? (Token.reference name) = none)
    (unset : c.vars.get? name = none) :
    w.evaluate id input true =
      (w.put id { c with
        status := .unknownToken, halted := false, lastToken := Token.reference name },
        .failed ⟨.unknownToken, Token.reference name, 0⟩) := by
  have listed : c.start.operators.lookup? (Token.reference name) = none := unlisted
  have handled : handleToken (evaluateAt (w.contexts.length - 1)) id true (Token.reference name)
      ((w.put id c.start).put id (c.start.reached (Token.reference name) c.stack)) =
      ((w.put id c.start).put id (c.start.reached (Token.reference name) c.stack),
        .fail .unknownToken) := by
    rw [unaided.start.handleToken_eq, Token.isLiteral_reference, listed]
    cases named : Token.variableName? (Token.reference name) with
    | none => rfl
    | some other =>
        have absent : c.start.vars.get? other = none := by
          rw [Token.eq_of_variableName?_reference named]
          exact unset
        simp only [absent, Bool.false_eq_true, if_false, if_true]
  rw [unaided.evaluate_eq_finish isOpen idle, tokens, runTokens_cons, unaided.start.stepToken_eq,
    handled]
  dsimp only
  rw [World.modify_put unaided.start.present, unaided.finish_put]
  simp only [Context.release, Context.reached, Context.start, idle]
  rfl

end ReversePolish.Unaided
