/-!
Stack words: builtins that copy, drop and reorder what lies on top of the stack.

They never look at a value, so they are defined for stacks of anything. A stack is a list with its
top first; a stack that is too short is refused.
-/

namespace ReversePolish

/-- The words that rearrange the stack. -/
inductive StackWord where
  | dup
  | dup2
  | swap
  | rot
  | unrot
  | over
  | drop
  deriving DecidableEq, Repr

namespace StackWord

/-- The number of values that a word needs on the stack. -/
def arity : StackWord → Nat
  | .dup | .drop => 1
  | .dup2 | .swap | .over => 2
  | .rot | .unrot => 3

/-- The stack after a word; `none` if it is too short. -/
def run? {α : Type} : StackWord → List α → Option (List α)
  | .dup, a :: s => some (a :: a :: s)
  | .dup2, b :: a :: s => some (b :: a :: b :: a :: s)
  | .swap, b :: a :: s => some (a :: b :: s)
  | .rot, c :: b :: a :: s => some (a :: c :: b :: s)
  | .unrot, c :: b :: a :: s => some (b :: a :: c :: s)
  | .over, b :: a :: s => some (a :: b :: a :: s)
  | .drop, _ :: s => some s
  | _, _ => none

/-- A word is refused exactly when the stack holds less than its arity. -/
theorem isSome_run?_iff {α : Type} (w : StackWord) (s : List α) :
    (w.run? s).isSome ↔ w.arity ≤ s.length := by
  cases w <;> rcases s with _ | ⟨a, _ | ⟨b, _ | ⟨c, s⟩⟩⟩ <;> simp [run?, arity]

end StackWord

end ReversePolish
