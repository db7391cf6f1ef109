import ReversePolish.Builtin

/-!
What builtins need of a stack, and what they do not look at.

A builtin is declared with an arity, and its body takes values off the stack without asking whether
they are there. `Builtin.isSome_run?_iff` says that the two fit: on a stack that holds as many
values as the arity, no body runs out of them. For `index` the arity covers the count alone; the
values that the count asks for are its own concern, and it asks before it takes them.

Below the values that a builtin takes, the stack may be anything. `Builtin.run?_append` says so for
every builtin but `depth`. A refusal for want of values is set apart, because values further down
would be taken instead.
-/

namespace ReversePolish

/-- The same effect with values below the stack. -/
def Effect.above (base : List Value) (effect : Effect) : Effect :=
  { effect with stack := effect.stack ++ base }

theorem StackWord.run?_append {α : Type} {w : StackWord} {stack left : List α}
    (run : w.run? stack = some left) (base : List α) :
    w.run? (stack ++ base) = some (left ++ base) := by
  cases w <;> rcases stack with _ | ⟨a, _ | ⟨b, _ | ⟨c, stack⟩⟩⟩ <;> cases run <;> rfl

namespace Builtin

/-! ## Values enough -/

theorem isSome_runFunction_iff (el : Elementary) (f : Function) (stack : List Value) :
    (runFunction el f stack).isSome ↔ f.arity ≤ stack.length := by
  have operands : (stack.take f.arity).reverse.length = f.arity ↔ f.arity ≤ stack.length := by
    rw [List.length_reverse, List.length_take]
    omega
  rw [← operands, ← f.isSome_result?_iff el]
  unfold runFunction
  split <;> rename_i result <;> simp [result]

/-- Choosing among `n` values needs these and the place, and no more. -/
theorem isSome_choose {n : Nat} {stack : List Value} (enough : n < stack.length) :
    (choose n stack).isSome := by
  unfold choose
  split
  · rename_i none
    rw [List.drop_eq_nil_iff] at none
    omega
  · split
    · rename_i i place
      split
      · rename_i inside
        have bound : i.toNat < (stack.take n).reverse.length := by
          rw [List.length_reverse, List.length_take]
          omega
        rw [List.getElem?_eq_getElem bound]
        rfl
      · rfl
    · rfl

theorem isSome_runIndex_iff (maxIndex : Nat) (stack : List Value) :
    (runIndex maxIndex stack).isSome ↔ 1 ≤ stack.length := by
  cases stack with
  | nil => exact iff_of_false Bool.false_ne_true (by simp)
  | cons top rest =>
      refine iff_of_true ?_ (by simp)
      unfold runIndex
      dsimp only
      split
      · rfl
      · split
        · rfl
        · exact isSome_choose (by omega)

/-- A builtin has an effect exactly on the stacks that hold as many values as its arity. -/
theorem isSome_run?_iff (set : Settings) (b : Builtin) (stack : List Value) :
    (b.run? set stack).isSome ↔ b.arity ≤ stack.length := by
  cases b with
  | function f => exact isSome_runFunction_iff set.elementary f stack
  | word w =>
      unfold run?
      rw [Option.isSome_map]
      exact w.isSome_run?_iff stack
  | depth => exact iff_of_true rfl (Nat.zero_le _)
  | index => exact isSome_runIndex_iff set.maxIndex stack
  | stop => cases stack <;> simp [run?, arity]

theorem exists_run? (b : Builtin) (set : Settings) {stack : List Value}
    (enough : b.arity ≤ stack.length) : ∃ effect, b.run? set stack = some effect :=
  Option.isSome_iff_exists.mp ((b.isSome_run?_iff set stack).mpr enough)

/-! ## Values below -/

theorem runFunction_append_base {el : Elementary} {f : Function} {stack : List Value}
    {effect : Effect} (run : runFunction el f stack = some effect) (base : List Value) :
    runFunction el f (stack ++ base) = some (effect.above base) := by
  have enough : f.arity ≤ stack.length := by
    rw [← isSome_runFunction_iff el, run]
    rfl
  unfold runFunction at run ⊢
  rw [List.take_append_of_le_length enough, List.drop_append_of_le_length enough]
  split at run
  · rename_i v result
    cases run
    rfl
  · cases run
    rfl
  · cases run

theorem choose_append {n : Nat} {stack : List Value} (enough : n < stack.length)
    (base : List Value) :
    choose n (stack ++ base) = (choose n stack).map (Effect.above base) := by
  unfold choose
  rw [List.take_append_of_le_length (by omega), List.drop_append_of_le_length (by omega)]
  cases below : stack.drop n with
  | nil =>
      rw [List.drop_eq_nil_iff] at below
      omega
  | cons place rest =>
      rw [List.cons_append]
      dsimp only
      cases place.integerPart? with
      | none => rfl
      | some i =>
          dsimp only
          split
          · cases (stack.take n).reverse[i.toNat]? <;> rfl
          · rfl

theorem runIndex_append {maxIndex : Nat} {stack : List Value} {effect : Effect}
    (run : runIndex maxIndex stack = some effect) (fed : effect.outcome ≠ .fail .argumentCount)
    (base : List Value) : runIndex maxIndex (stack ++ base) = some (effect.above base) := by
  cases stack with
  | nil => cases run
  | cons top rest =>
      rw [List.cons_append]
      unfold runIndex at run ⊢
      dsimp only at run ⊢
      split at run
      · rw [if_pos ‹_›]
        cases run
        rfl
      · rename_i taken
        rw [if_neg taken]
        split at run
        · cases run
          exact absurd rfl fed
        · rename_i enough
          have more : ¬ ((rest ++ base).length : Int) < top.count + 1 := by
            rw [List.length_append]
            omega
          rw [if_neg more, choose_append (by omega), run]
          rfl

/-- No builtin but `depth` looks below the values that it takes. -/
theorem run?_append {set : Settings} {b : Builtin} {stack : List Value} {effect : Effect}
    (other : b ≠ .depth) (run : b.run? set stack = some effect)
    (fed : effect.outcome ≠ .fail .argumentCount) (base : List Value) :
    b.run? set (stack ++ base) = some (effect.above base) := by
  cases b with
  | function f => exact runFunction_append_base run base
  | word w =>
      obtain ⟨left, rearranged, rfl⟩ := Option.map_eq_some_iff.mp run
      show (w.run? (stack ++ base)).map _ = _
      rw [StackWord.run?_append rearranged]
      rfl
  | depth => exact absurd rfl other
  | index => exact runIndex_append run fed base
  | stop =>
      cases stack with
      | nil => cases run
      | cons top rest =>
          cases run
          rfl

end Builtin

end ReversePolish
