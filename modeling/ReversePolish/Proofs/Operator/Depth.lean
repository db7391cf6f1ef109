import ReversePolish.Proofs.Operator.Effect

/-!
How builtins change the depth of a stack.

Every builtin but `index` takes a number of values and leaves a number of values that can be told
from its name alone: neither depends on the values, as long as the builtin lets the evaluation go
on. `Builtin.stackEffect` lists the numbers, and `Builtin.run?_depth` says that they are the right
ones. A builtin that does not let the evaluation go on halts it or refuses its operands, and it
never fails for want of values, because it is not called then.
-/

namespace ReversePolish

/-- How many values are taken off a stack, and how many are left in their place. -/
structure StackEffect where
  takes : Nat
  leaves : Nat
  deriving DecidableEq, Repr

/-- The depth of a stack behind an effect. -/
def StackEffect.after (e : StackEffect) (depth : Nat) : Nat :=
  depth - e.takes + e.leaves

/-- The outcomes that end a run for another reason than want of values. -/
inductive Outcome.Interrupts : Outcome → Prop
  | halt : Interrupts .halt
  | divideByZero : Interrupts (.fail .divideByZero)
  | invalidArgument : Interrupts (.fail .invalidArgument)
  | unknownToken : Interrupts (.fail .unknownToken)

namespace StackWord

/-- The number of values that a word leaves in place of those it needs. -/
def leaves : StackWord → Nat
  | .drop => 0
  | .dup | .swap => 2
  | .rot | .unrot | .over => 3
  | .dup2 => 4

theorem length_run? {α : Type} {w : StackWord} {stack left : List α}
    (run : w.run? stack = some left) : left.length = stack.length - w.arity + w.leaves := by
  cases w <;> rcases stack with _ | ⟨a, _ | ⟨b, _ | ⟨c, stack⟩⟩⟩ <;> cases run <;>
    simp [arity, leaves]

end StackWord

/-! ## Refusals -/

theorem UnaryFunction.apply_error {el : Elementary} {f : UnaryFunction} {a : Value}
    {reason : Status} (refused : f.apply el a = .error reason) : reason = .invalidArgument := by
  unfold apply at refused
  cases f <;> dsimp only at refused <;> try cases refused
  all_goals
    split at refused <;> cases refused
    rfl

theorem BinaryFunction.apply_error {el : Elementary} {f : BinaryFunction} {a b : Value}
    {reason : Status} (refused : f.apply el a b = .error reason) :
    reason = .divideByZero ∨ reason = .invalidArgument := by
  unfold apply at refused
  cases f <;> dsimp only at refused <;> try cases refused
  case round =>
    split at refused <;> cases refused
    exact .inr rfl
  all_goals
    split at refused <;> cases refused
    exact .inl rfl

theorem rescale_error {v fromLow fromHigh toLow toHigh : Value} {reason : Status}
    (refused : rescale v fromLow fromHigh toLow toHigh = .error reason) :
    reason = .invalidArgument := by
  unfold rescale at refused
  split at refused <;> cases refused
  rfl

/-- A function refuses its operands for one of two reasons. -/
theorem Function.interrupts_of_error {el : Elementary} {f : Function} {operands : List Value}
    {reason : Status} (refused : f.result? el operands = some (.error reason)) :
    (Outcome.fail reason).Interrupts := by
  unfold result? at refused
  split at refused
  · cases refused
  · rw [UnaryFunction.apply_error (Option.some.inj refused)]
    exact .invalidArgument
  · rcases BinaryFunction.apply_error (Option.some.inj refused) with rfl | rfl
    · exact .divideByZero
    · exact .invalidArgument
  · cases refused
  · rw [rescale_error (Option.some.inj refused)]
    exact .invalidArgument
  · cases refused

/-! ## Builtins -/

namespace Builtin

/-- The number of values that a builtin leaves in place of those it needs. How many values `index`
takes is said by the stack, so there is nothing to be listed for it. -/
def leaves : Builtin → Nat
  | .function _ => 1
  | .word w => w.leaves
  | .depth => 1
  | .index => 0
  | .stop => 0

/-- What a builtin takes off the stack and leaves there. -/
def stackEffect (b : Builtin) : StackEffect :=
  ⟨b.arity, b.leaves⟩

theorem runFunction_depth {el : Elementary} {f : Function} {stack : List Value} {effect : Effect}
    (run : runFunction el f stack = some effect) :
    effect.outcome = .proceed ∧ effect.stack.length = stack.length - f.arity + 1 ∨
      effect.outcome.Interrupts := by
  unfold runFunction at run
  split at run
  · cases run
    exact .inl ⟨rfl, by rw [List.length_cons, List.length_drop]⟩
  · rename_i reason refused
    cases run
    exact .inr (Function.interrupts_of_error refused)
  · cases run

/-- A builtin changes the depth of the stack as it is listed, or it ends the evaluation. -/
theorem run?_depth {set : Settings} {b : Builtin} {stack : List Value} {effect : Effect}
    (other : b ≠ .index) (run : b.run? set stack = some effect) :
    effect.outcome = .proceed ∧ effect.stack.length = b.stackEffect.after stack.length ∨
      effect.outcome.Interrupts := by
  cases b with
  | function f => exact runFunction_depth run
  | word w =>
      obtain ⟨left, rearranged, rfl⟩ := Option.map_eq_some_iff.mp run
      exact .inl ⟨rfl, StackWord.length_run? rearranged⟩
  | depth =>
      cases run
      exact .inl ⟨rfl, rfl⟩
  | index => exact absurd rfl other
  | stop =>
      cases stack with
      | nil => cases run
      | cons top rest =>
          cases run
          dsimp only
          split
          · exact .inr .halt
          · exact .inl ⟨rfl, rfl⟩

end Builtin

end ReversePolish
