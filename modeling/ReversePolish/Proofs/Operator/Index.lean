import ReversePolish.Proofs.Evaluation.Guard
import ReversePolish.Proofs.Number.Whole
import ReversePolish.Proofs.Operator.Library

/-!
The operator `index`.

It takes a count off the stack, then as many values, and last the place of the one that is wanted.
How much is gone when it fails depends on how far it came: a count that is refused is gone alone, a
place that is refused is gone with the values above it. What lies further down is never touched.

The values are taken from the top, so they come last one first; the place counts from the one that
was pushed first. `IndexEffect` lists them in this order.
-/

namespace ReversePolish

/-- What `index` does under a limit, by the count `n` that it has taken and the values below it. -/
inductive IndexEffect (limit n : Int) (rest : List Value) : Effect → Prop
  | refused : n ≤ 0 ∨ limit < n → IndexEffect limit n rest ⟨rest, .fail .invalidArgument⟩
  | short : 0 < n ∧ n ≤ limit → (rest.length : Int) < n + 1 →
    IndexEffect limit n rest ⟨rest, .fail .argumentCount⟩
  | chosen {values below : List Value} {place v : Value} : 0 < n ∧ n ≤ limit →
    rest = values.reverse ++ place :: below → (values.length : Int) = n →
    place.isFinite = true ∧ 0 ≤ place.whole ∧ place.whole < n →
    values[place.whole.toNat]? = some v → IndexEffect limit n rest ⟨v :: below, .proceed⟩
  | misplaced {values below : List Value} {place : Value} : 0 < n ∧ n ≤ limit →
    rest = values.reverse ++ place :: below → (values.length : Int) = n →
    ¬(place.isFinite = true ∧ 0 ≤ place.whole ∧ place.whole < n) →
    IndexEffect limit n rest ⟨below, .fail .invalidArgument⟩

namespace Builtin

/-- A stack that is long enough for a count consists of the values, the place below them, and a
rest. -/
theorem exists_values {n : Nat} {stack : List Value} (enough : n < stack.length) :
    ∃ (values : List Value) (place : Value) (below : List Value),
      stack = values.reverse ++ place :: below ∧ values.length = n := by
  refine ⟨(stack.take n).reverse, stack[n], stack.drop (n + 1), ?_, ?_⟩
  · rw [List.reverse_reverse, List.getElem_cons_drop, List.take_append_drop]
  · rw [List.length_reverse, List.length_take_of_le (Nat.le_of_lt enough)]

/-- The value at a place is chosen, if it is the place of a value. -/
theorem choose_values (values below : List Value) (place : Value) :
    choose values.length (values.reverse ++ place :: below) =
      if place.isFinite = true ∧ 0 ≤ place.whole ∧ place.whole < values.length then
        values[place.whole.toNat]?.map (fun v => ⟨v :: below, .proceed⟩)
      else some ⟨below, .fail .invalidArgument⟩ := by
  have taken : (values.reverse ++ place :: below).take values.length = values.reverse :=
    List.take_left' List.length_reverse
  have left : (values.reverse ++ place :: below).drop values.length = place :: below :=
    List.drop_left' List.length_reverse
  simp only [choose, taken, left, List.reverse_reverse, place.integerPart?_eq]
  cases place.isFinite with
  | false => simp
  | true =>
      simp only [if_true, true_and]
      split
      · cases values[place.whole.toNat]? <;> rfl
      · rfl

theorem exists_indexEffect (limit : Nat) (top : Value) (rest : List Value) :
    ∃ effect, runIndex limit (top :: rest) = some effect ∧
      IndexEffect limit top.count rest effect := by
  unfold runIndex
  dsimp only
  split
  · exact ⟨_, rfl, .refused ‹_›⟩
  · rename_i taken
    split
    · exact ⟨_, rfl, .short (by omega) ‹_›⟩
    · rename_i enough
      have many : top.count.toNat < rest.length := by omega
      rcases exists_values many with ⟨values, place, below, rfl, length⟩
      have count : (values.length : Int) = top.count := by omega
      rw [← length, choose_values, count]
      split
      · rename_i inside
        have bound : place.whole.toNat < values.length := by omega
        have there := List.getElem?_eq_getElem bound
        exact ⟨_, by rw [there, Option.map_some], .chosen (by omega) rfl count inside there⟩
      · exact ⟨_, rfl, .misplaced (by omega) rfl count ‹_›⟩

end Builtin

/-- What the token `index` does on a context, with whichever stack and with the limit that the
context was built with. The count is the integer part of the value on top, as a number of 64 bits.
One more than it is such a number as well, so the test for enough values cannot overflow. -/
theorem handleToken_index {w : World} {id : Nat} {c : Context} {o : ContextOptions}
    (present : w.get? id = some c) (built : c.settings = (Context.new o).settings)
    (limited : 1 ≤ o.maxIndex)
    (listed : c.operators.lookup? "index" = some (.builtin .index))
    (evaluate : Evaluator) (strict : Bool) :
    (c.stack = [] → handleToken evaluate id strict "index" w = (w, .fail .argumentCount)) ∧
      ∀ top rest, c.stack = top :: rest →
        let n : Int :=
          if top.isFinite = true ∧ -2 ^ 63 ≤ top.whole ∧ top.whole < 2 ^ 63 then top.whole
          else -2 ^ 63
        (-2 ^ 63 ≤ n + 1 ∧ n + 1 < 2 ^ 63) ∧
          ∃ effect, IndexEffect o.maxIndex n rest effect ∧
            handleToken evaluate id strict "index" w =
              (w.put id { c with stack := effect.stack }, effect.outcome) := by
  have word : Token.isLiteral "index" = false := by decide
  have limit : (c.settings.maxIndex : Int) = o.maxIndex := by
    have positive : 0 < o.maxIndex := limited
    rw [built]
    simp only [Context.new, if_pos positive]
    omega
  constructor
  · intro empty
    have starved : c.stack.length < (Operator.builtin .index).arity := by
      rw [empty]
      decide
    simp only [handleToken, present, word, listed, if_pos starved, Bool.false_eq_true, if_false]
  · intro top rest stack n
    have count : top.count = n := top.count_eq
    have least : -2 ^ 63 ≤ top.count := top.leastCount_le_count
    have room : top.count + 1 < 2 ^ 63 := top.count_add_one_lt
    rcases Builtin.exists_indexEffect c.settings.maxIndex top rest with ⟨effect, run, effects⟩
    have run : Builtin.index.run? c.settings c.stack = some effect := stack ▸ run
    have enough : ¬c.stack.length < (Operator.builtin .index).arity := by
      rw [stack]
      exact Nat.not_lt.mpr (Nat.le_add_left 1 _)
    rw [count, limit] at effects
    refine ⟨by omega, effect, effects, ?_⟩
    simp only [handleToken, present, word, listed, if_neg enough, callOperator_builtin run,
      Bool.false_eq_true, if_false]

/-- Under the greatest limit there is: of the values ten and twenty, ten was pushed first, so that
twenty is at the place one, and at one and a half. -/
theorem handleToken_index_twenty :
    let c : Context :=
      { Context.new { maxIndex := 2 ^ 63 - 1 } with
        stack := [2, 20, 10, .ofRatio false 3 2, 7] }
    let w : World := ⟨[c], none, []⟩
    handleToken refuseEvaluation 0 false "index" w =
      (w.put 0 { c with stack := [20, 7] }, .proceed) := by
  intro c w
  have listed : c.operators.lookup? "index" = some (.builtin .index) :=
    @Context.lookup?_startingOperators { maxIndex := 2 ^ 63 - 1 } rfl .index (by decide)
  have present : w.get? 0 = some c := rfl
  rcases (@handleToken_index w 0 c { maxIndex := 2 ^ 63 - 1 } present rfl (by decide) listed
    refuseEvaluation false).2 2 [20, 10, .ofRatio false 3 2, 7] rfl with ⟨-, effect, effects, handled⟩
  rw [if_pos (by decide +kernel), show Floating.whole (2 : Value) = 2 by decide +kernel] at effects
  rw [handled]
  have inside : (.ofRatio false 3 2 : Value).isFinite = true ∧
      0 ≤ (.ofRatio false 3 2 : Value).whole ∧ (.ofRatio false 3 2 : Value).whole < 2 := by
    decide +kernel
  have first : (.ofRatio false 3 2 : Value).whole = 1 := by decide +kernel
  cases effects with
  | refused limits => exact absurd limits (by decide)
  | short limits few => exact absurd few (by decide)
  | @chosen values below place v limits parts length placed there =>
      rcases values with _ | ⟨ten, _ | ⟨twenty, _ | ⟨more, values⟩⟩⟩ <;> simp at length
      · cases parts
        rw [first] at there
        cases there
        rfl
      · omega
  | @misplaced values below place limits parts length placed =>
      rcases values with _ | ⟨ten, _ | ⟨twenty, _ | ⟨more, values⟩⟩⟩ <;> simp at length
      · cases parts
        exact absurd inside placed
      · omega

end ReversePolish
