import ReversePolish.Proofs.Evaluation.Dispatch
import ReversePolish.Proofs.Number.Readback
import ReversePolish.Proofs.Token

/-!
Values that are written and read back.

The text of a value is a numeral that is rounded to the value again, down to the sign of zero, so
nothing is lost by writing a value and reading it. If the text has no exponent it is a literal as
well, and as a token it pushes the value.
-/

namespace ReversePolish

namespace Value

open Decimal Numeral

/-! ## Sizes -/

theorem units_lt {k : Nat} (finite : k < binary32.top) :
    binary32.units k < 2 ^ 24 * 2 ^ 254 := by
  obtain ⟨-, below, -⟩ := binary32.rank_eq k
  have doublings : binary32.doublings k ≤ 254 := by
    have quotient : k / binary32.binade < 255 :=
      (Nat.div_lt_iff_lt_mul binary32.binade_pos).mpr finite
    unfold Format.doublings
    omega
  calc binary32.units k = binary32.steps k * 2 ^ binary32.doublings k := binary32.units_eq k
    _ < 2 ^ 24 * 2 ^ binary32.doublings k := Nat.mul_lt_mul_of_pos_right below (Nat.two_pow_pos _)
    _ ≤ 2 ^ 24 * 2 ^ 254 := Nat.mul_le_mul_left _ (Nat.pow_le_pow_right (by decide) doublings)

/-- The exponents of values are short enough to be read. -/
theorem leading_small {k : Nat} (nonzero : 0 < k) (finite : k < binary32.top) :
    (shortest binary32 k).leading.natAbs < 10 * exponentBound := by
  have center : (interval binary32 k).center / 2 = binary32.units k * 5 ^ 149 := by
    show 2 * binary32.units k * 5 ^ 149 / 2 = _
    rw [Nat.mul_assoc, Nat.mul_div_cancel_left _ (by decide)]
  have size : (interval binary32 k).center / 2 + 1 < 10 ^ 300 := by
    have five : 0 < 5 ^ 149 := Nat.pow_pos (by decide)
    have product := Nat.mul_lt_mul_of_pos_right (units_lt finite) five
    have bound : 2 ^ 24 * 2 ^ 254 * 5 ^ 149 + 1 < 10 ^ 300 := by decide +kernel
    omega
  obtain ⟨count, low, high⟩ := shortest_bounds nonzero (by decide) size
  have some : 0 < digitCount (shortest binary32 k).digits := Nat.length_toDigits_pos
  have scale : (binary32.scale : Int) = 149 := rfl
  have bound : exponentBound = 10000 := rfl
  unfold leading
  omega

/-! ## Texts -/

/-- A value is what a text stands for: a numeral that is rounded to the value and not too large. -/
def ReadAs (text : String) (v : Value) : Prop :=
  ∃ n, ofText? text = some n ∧ n.round = v ∧ n.overflows binary32 = false

theorem read?_of_readAs {text : String} {v : Value} (reads : ReadAs text v) :
    read? text = some v := by
  obtain ⟨n, numeral, rounded, small⟩ := reads
  unfold read? Numeral.read?
  rw [numeral]
  dsimp only
  rw [small, rounded]
  rfl

theorem readAs_infinity (negative : Bool) :
    ReadAs (if negative then "-Inf" else "+Inf") (.infinity negative) := by
  refine ⟨.infinity negative, ?_, rfl, rfl⟩
  cases negative <;> decide

theorem readAs_zero (negative : Bool) :
    ReadAs (Floating.renderFinite (f := binary32) layout negative 0) (.zero negative) := by
  refine ⟨.scaled negative 0 10 0, ?_, ?_, ?_⟩ <;> cases negative <;> decide +kernel

section Finite

variable {k : Fin (binary32.top + 1)} (nonzero : 0 < k.val) (finite : k.val < binary32.top)
  (negative : Bool)
include nonzero

theorem toList_renderFinite :
    (Floating.renderFinite (f := binary32) layout negative k).toList =
      if negative then '-' :: (shortest binary32 k).render layout
      else (shortest binary32 k).render layout := by
  rw [Floating.renderFinite, if_neg (Nat.ne_of_gt nonzero), String.toList_ofList]

include finite

theorem readAs_renderFinite :
    ReadAs (Floating.renderFinite (f := binary32) layout negative k) (.signed negative k) := by
  obtain ⟨digits, exponent, same, read⟩ :=
    ofChars?_render layout (leading_small nonzero finite) negative
  obtain ⟨y, contained, center⟩ := shortest_contained (f := binary32) nonzero
  rw [← same] at center
  have rounded := round_of_contained (by decide) nonzero contained center negative
  refine ⟨_, ?_, rounded, ?_⟩
  · rw [ofText?, toList_renderFinite nonzero, read]
  · rw [overflows, rounded, Floating.isInfinite]
    exact beq_eq_false_iff_ne.mpr (Nat.ne_of_lt finite)

end Finite

theorem render_signed (negative : Bool) (k : Fin (binary32.top + 1)) :
    render (.signed negative k) =
      if k.val = binary32.top then if negative then "-Inf" else "+Inf"
      else Floating.renderFinite (f := binary32) layout negative k :=
  rfl

/-- The text of a value stands for the value. -/
theorem readAs_render {v : Value} (number : v ≠ .nan) : ReadAs v.render v := by
  rcases v with _ | ⟨negative, k⟩
  · exact absurd rfl number
  · rw [render_signed]
    split
    · rename_i infinite
      have last : k = Fin.last binary32.top := Fin.ext infinite
      rw [last]
      exact readAs_infinity negative
    · rename_i below
      have finite : k.val < binary32.top := Nat.lt_of_le_of_ne (Nat.le_of_lt_succ k.isLt) below
      rcases Nat.eq_zero_or_pos k.val with zero | nonzero
      · have first : k = 0 := Fin.ext zero
        rw [first]
        exact readAs_zero negative
      · exact readAs_renderFinite nonzero finite negative

/-! ## Literals -/

/-- The text of a finite value without an exponent is a literal. -/
theorem isLiteral_render {v : Value} (number : v ≠ .nan) (finite : v.isInfinite = false)
    (unmarked : 'e' ∉ v.render.toList) : Token.isLiteral v.render = true := by
  rcases v with _ | ⟨negative, k⟩
  · exact absurd rfl number
  · have below : ¬k.val = binary32.top := beq_eq_false_iff_ne.mp finite
    rw [render_signed, if_neg below] at unmarked ⊢
    rcases Nat.eq_zero_or_pos k.val with zero | nonzero
    · rw [zero]
      cases negative <;> decide
    · rw [toList_renderFinite nonzero] at unmarked
      have inside : 'e' ∉ (shortest binary32 k).render layout := by
        intro member
        split at unmarked
        · exact unmarked (List.mem_cons_of_mem '-' member)
        · exact unmarked member
      obtain ⟨c, rest, text, digit⟩ := (plain_render layout (shortest binary32 k)).head
      obtain ⟨whole, nothing⟩ := splitMantissa_render layout inside
      rw [Token.isLiteral, toList_renderFinite nonzero]
      rw [text] at whole nothing ⊢
      rw [splitSign_sign digit]
      simp [whole, nothing]

theorem literalValue_render {v : Value} (number : v ≠ .nan) :
    Token.literalValue v.render = v := by
  obtain ⟨n, numeral, rounded, -⟩ := readAs_render number
  rw [Token.literalValue, numeral]
  exact rounded

end Value

/-- Every value but what is not a number is read back from its text, bit for bit. If it is finite
and its text has no exponent, the text is a literal; as a token it pushes the value, on whichever
context and whatever else is underway, and as an expression it adds the value to the stack and
changes nothing else but what is remembered of the evaluation. -/
theorem render_reads_back {v : Value} (number : v ≠ .nan) :
    Value.read? v.render = some v ∧
      (v.isInfinite = false → 'e' ∉ v.render.toList →
        Token.isLiteral v.render = true ∧ Token.literalValue v.render = v ∧
          ∀ {w : World} {id : Nat} {c : Context}, w.get? id = some c → ∀ strict : Bool,
            (∀ evaluate : Evaluator,
              handleToken evaluate id strict v.render w = (w.put id (c.push v), .proceed)) ∧
              (c.closed = false → c.busy = false → c.hook = none → w.sharedHook = none →
                w.evaluate id v.render strict =
                  (w.put id { c with
                    stack := v :: c.stack, status := .ok, halted := false,
                    lastToken := v.render }, .ok))) := by
  refine ⟨Value.read?_of_readAs (Value.readAs_render number), fun finite unmarked => ?_⟩
  have literal := Value.isLiteral_render number finite unmarked
  have same := Value.literalValue_render number
  refine ⟨literal, same, fun {w id c} present strict => ⟨fun evaluate => ?_, ?_⟩⟩
  · simp only [handleToken, present, if_pos literal, same]
  · intro isOpen idle unwatched unshared
    have single : Token.tokenize v.render = [v.render] :=
      Text.words_of_isWord (Token.isWord_of_isLiteral literal)
    have pushed := (evaluate_single_literal present unwatched unshared single strict literal isOpen
      idle).2
    rwa [same] at pushed

/-- The least negative value but zero, and a tenth. -/
theorem render_reads_back_least_and_tenth :
    let least : Value := .signed true 1
    let tenth : Value := .ofRatio false 1 10
    (least.render = "-1e-45" ∧ Value.read? "-1e-45" = some least) ∧
      tenth.render = "0.1" ∧ Value.read? "0.1" = some tenth ∧
      Token.literalValue "0.1" = tenth := by
  intro least tenth
  have leastText : least.render = "-1e-45" := by decide +kernel
  have tenthText : tenth.render = "0.1" := by decide +kernel
  have leastRead := (render_reads_back (by decide : least ≠ .nan)).1
  have tenthRead := render_reads_back (by decide : tenth ≠ .nan)
  rw [leastText] at leastRead
  rw [tenthText] at tenthRead
  exact ⟨⟨leastText, leastRead⟩, tenthText, tenthRead.1,
    (tenthRead.2 (by decide +kernel) (by decide)).2.1⟩

end ReversePolish
