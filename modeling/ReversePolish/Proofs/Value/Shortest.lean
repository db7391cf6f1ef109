import Mathlib.Data.List.DropRight
import ReversePolish.Proofs.Literal
import ReversePolish.Proofs.Number.Fewest
import ReversePolish.Proofs.Value

/-!
Values are written in the fewest digits.

The text of a value is laid out in several ways, and zeros and a point may stand around and among
its digits. Its significand is what is left without these (`Numeral.significand`). The significand
depends only on the number that the digits of the text are read as, because the digits of a number
are determined up to zeros at either end (`Numeral.trimZeros_eq`); so it is found from what the text
is read as, whatever the layout. The digits are those of the shortest decimal of the value. Of all
decimals that are rounded to the value this one has the fewest digits, and is nearest to the value
among those with as few.
-/

namespace ReversePolish

namespace Numeral

/-! ## Significant digits -/

/-- Digits without the zeros at their ends. -/
def trimZeros (cs : List Char) : List Char :=
  (cs.dropWhile (· == '0')).rdropWhile (· == '0')

/-- The significant digits of a numeral: all digits before its exponent but the zeros at their
ends. -/
def significand (cs : List Char) : List Char :=
  trimZeros ((cs.takeWhile (· != 'e')).filter isDecimalDigit)

theorem digitChar_ne_zero {n : Nat} (small : n < 10) (nonzero : n ≠ 0) : n.digitChar ≠ '0' := by
  have all : ∀ m < 10, m ≠ 0 → Nat.digitChar m ≠ '0' := by decide
  exact all n small nonzero

theorem digitChar_digitValue {c : Char} (digit : isDecimalDigit c = true) :
    digitValue c < 10 ∧ (digitValue c).digitChar = c := by
  rw [digitValue_of_isDecimalDigit digit]
  obtain ⟨low, high⟩ := isDecimalDigit_iff.mp digit
  have small : c.toNat - 48 < 10 := by omega
  refine ⟨small, Char.toNat_inj.mp ?_⟩
  show (Nat.digitChar (c.toNat - 48)).toNat = _
  rw [Nat.toNat_digitChar_of_lt_ten small]
  omega

theorem toDigits_starts {n : Nat} (nonzero : 0 < n) :
    ∃ c rest, Nat.toDigits 10 n = c :: rest ∧ c ≠ '0' := by
  induction n using Nat.strongRecOn with
  | ind n ih =>
      rcases Nat.lt_or_ge n 10 with single | several
      · exact ⟨_, [], Nat.toDigits_of_lt_base single, digitChar_ne_zero single nonzero.ne'⟩
      · obtain ⟨c, rest, text, other⟩ := ih (n / 10) (by omega) (by omega)
        refine ⟨c, rest ++ [(n % 10).digitChar], ?_, other⟩
        rw [Nat.toDigits_of_base_le (by decide) several, text, List.cons_append]

theorem toDigits_ends {n : Nat} (last : n % 10 ≠ 0) :
    ∃ cs c, Nat.toDigits 10 n = cs ++ [c] ∧ c ≠ '0' := by
  rcases Nat.lt_or_ge n 10 with single | several
  · rw [Nat.mod_eq_of_lt single] at last
    exact ⟨[], _, Nat.toDigits_of_lt_base single, digitChar_ne_zero single last⟩
  · exact ⟨_, _, Nat.toDigits_of_base_le (by decide) several,
      digitChar_ne_zero (Nat.mod_lt n (by decide)) last⟩

theorem toDigits_mul_pow {n : Nat} (nonzero : 0 < n) (z : Nat) :
    Nat.toDigits 10 (n * 10 ^ z) = Nat.toDigits 10 n ++ List.replicate z '0' := by
  induction z with
  | zero => simp
  | succ z ih =>
      have power : 0 < n * 10 ^ z := by positivity
      have step := Nat.toDigits_append_toDigits (b := 10) (d := 0) (by decide) power (by decide)
      rw [show n * 10 ^ (z + 1) = 10 * (n * 10 ^ z) + 0 by ring, ← step, ih,
        List.replicate_succ', List.append_assoc]
      rfl

/-- Digits are those of the number that they stand for, behind some zeros; those that stand for zero
are all zeros. -/
theorem digits_cases {cs : List Char} (digits : Digits cs) :
    digitsValue 10 cs = 0 ∧ cs = List.replicate cs.length '0' ∨
      0 < digitsValue 10 cs ∧
        ∃ z, cs = List.replicate z '0' ++ Nat.toDigits 10 (digitsValue 10 cs) := by
  induction cs using List.reverseRecOn with
  | nil => exact .inl ⟨rfl, rfl⟩
  | append_singleton cs c ih =>
      have total : digitsValue 10 (cs ++ [c]) = 10 * digitsValue 10 cs + digitValue c := by
        rw [digitsValue, List.foldl_append]
        rfl
      obtain ⟨small, same⟩ := digitChar_digitValue (digits c (by simp))
      have single : Nat.toDigits 10 (digitValue c) = [c] := by
        rw [Nat.toDigits_of_lt_base small, same]
      rw [total]
      rcases ih (fun d member => digits d (List.mem_append_left _ member)) with
        ⟨zero, zeros⟩ | ⟨positive, z, text⟩
      · rw [zero, Nat.mul_zero, Nat.zero_add]
        rcases Nat.eq_zero_or_pos (digitValue c) with none | some
        · have last : c = '0' := by
            rw [← same, none]
            rfl
          refine .inl ⟨none, ?_⟩
          rw [last, List.length_append, List.length_singleton, List.replicate_succ', ← zeros]
        · refine .inr ⟨some, cs.length, ?_⟩
          rw [single, ← zeros]
      · refine .inr ⟨by omega, z, ?_⟩
        rw [← Nat.toDigits_append_toDigits (by decide) positive small, single,
          ← List.append_assoc, ← text]

/-- The digits of a number stay when zeros around them are taken away. -/
theorem trimZeros_padded {n : Nat} (last : n % 10 ≠ 0) (before after : Nat) :
    trimZeros (List.replicate before '0' ++ (Nat.toDigits 10 n ++ List.replicate after '0')) =
      Nat.toDigits 10 n := by
  have zeros : ∀ m, ∀ c ∈ List.replicate m '0', (c == '0') = true := by
    intro m c member
    rw [List.eq_of_mem_replicate member]
    rfl
  obtain ⟨c, rest, start, first⟩ := toDigits_starts (n := n) (by omega)
  obtain ⟨init, d, finish, final⟩ := toDigits_ends last
  have front : (Nat.toDigits 10 n ++ List.replicate after '0').dropWhile (· == '0') =
      Nat.toDigits 10 n ++ List.replicate after '0' := by
    rw [start, List.cons_append, List.dropWhile_cons_of_neg (by simpa using first)]
  rw [trimZeros, List.dropWhile_append_of_pos (zeros before), front, List.rdropWhile,
    List.reverse_append, List.reverse_replicate, List.dropWhile_append_of_pos (zeros after),
    finish, List.reverse_append, List.reverse_singleton, List.singleton_append,
    List.dropWhile_cons_of_neg (by simpa using final), List.reverse_cons, List.reverse_reverse]

/-- The significant digits of a number, from any digits that stand for it up to a power of ten. -/
theorem trimZeros_eq {cs : List Char} (digits : Digits cs) {n z : Nat} (last : n % 10 ≠ 0)
    (number : digitsValue 10 cs = n * 10 ^ z) : trimZeros cs = Nat.toDigits 10 n := by
  have some : 0 < n := by omega
  rcases digits_cases digits with ⟨zero, -⟩ | ⟨-, before, text⟩
  · have : 0 < n * 10 ^ z := by positivity
    omega
  · rw [number, toDigits_mul_pow some] at text
    rw [text]
    exact trimZeros_padded last before z

/-! ## Texts -/

theorem mantissa_chars {whole fraction : List Char} (wholeDigits : Digits whole)
    (fractionDigits : Digits fraction) {c : Char} (member : c ∈ mantissa whole fraction) :
    isDecimalDigit c = true ∨ c = '.' := by
  unfold mantissa at member
  split at member
  · exact .inl (wholeDigits c member)
  · rcases List.mem_append.mp member with inWhole | behind
    · exact .inl (wholeDigits c inWhole)
    · rcases List.mem_cons.mp behind with point | inFraction
      · exact .inr point
      · exact .inl (fractionDigits c inFraction)

theorem ne_e_of_mem_mantissa {whole fraction : List Char} (wholeDigits : Digits whole)
    (fractionDigits : Digits fraction) {c : Char} (member : c ∈ mantissa whole fraction) :
    c ≠ 'e' := by
  rintro rfl
  rcases mantissa_chars wholeDigits fractionDigits member with digit | point
  · exact absurd digit (by decide)
  · exact absurd point (by decide)

theorem filter_mantissa {whole fraction : List Char} (wholeDigits : Digits whole)
    (fractionDigits : Digits fraction) :
    (mantissa whole fraction).filter isDecimalDigit = whole ++ fraction := by
  have kept : ∀ {cs : List Char}, Digits cs → cs.filter isDecimalDigit = cs :=
    fun digits => List.filter_eq_self.mpr digits
  unfold mantissa
  split
  · rw [kept wholeDigits, List.append_nil]
  · rw [List.filter_append, List.filter_cons_of_neg (by decide), kept wholeDigits,
      kept fractionDigits]

/-- The significant digits of a mantissa, before an exponent or none, are those of its digits. -/
theorem significand_mantissa {whole fraction rest : List Char} (wholeDigits : Digits whole)
    (fractionDigits : Digits fraction) (ends : Ends rest) :
    significand (mantissa whole fraction ++ rest) = trimZeros (whole ++ fraction) := by
  have before : ∀ c ∈ mantissa whole fraction, (c != 'e') = true :=
    fun c member => bne_iff_ne.mpr (ne_e_of_mem_mantissa wholeDigits fractionDigits member)
  have nothing : rest.takeWhile (· != 'e') = [] := by
    rcases ends with rfl | ⟨tail, rfl⟩ <;> rfl
  rw [significand, List.takeWhile_append_of_pos before, nothing, List.append_nil,
    filter_mantissa wholeDigits fractionDigits]

theorem significand_sign (negative : Bool) (cs : List Char) :
    significand (if negative then '-' :: cs else cs) = significand cs := by
  cases negative <;> rfl

end Numeral

namespace Decimal

open Numeral

/-- Two ways to write a number: if one does not end in a zero, the other has zeros behind it. -/
theorem eq_mul_pow_of_value_eq {m n : Nat} {e s : Int} (last : n % 10 ≠ 0)
    (same : value m e = value n s) : ∃ z, m = n * 10 ^ z := by
  rcases le_total e s with below | above
  · obtain ⟨z, rfl⟩ := Int.le.dest below
    rw [← value_shift] at same
    refine ⟨z, ?_⟩
    have power : (10 : ℚ) ^ e ≠ 0 := zpow_ne_zero e (by norm_num)
    exact_mod_cast mul_right_cancel₀ power same
  · obtain ⟨z, rfl⟩ := Int.le.dest above
    rw [← value_shift] at same
    have power : (10 : ℚ) ^ s ≠ 0 := zpow_ne_zero s (by norm_num)
    have whole : m * 10 ^ z = n := by exact_mod_cast mul_right_cancel₀ power same
    cases z with
    | zero => exact ⟨0, by omega⟩
    | succ z =>
        rw [← whole, Nat.pow_succ, ← Nat.mul_assoc, Nat.mul_mod_left] at last
        exact absurd rfl last

/-- The significant digits of the text of a decimal are its digits. -/
theorem significand_render (layout : Layout) {d : Decimal} (last : d.digits % 10 ≠ 0) :
    significand (render layout d) = Nat.toDigits 10 d.digits := by
  have trimmed {whole fraction : List Char} {rest : Int} (parts : d.Parts whole fraction rest) :
      trimZeros (whole ++ fraction) = Nat.toDigits 10 d.digits := by
    obtain ⟨z, number⟩ := eq_mul_pow_of_value_eq last parts.same
    exact trimZeros_eq (parts.wholeDigits.append parts.fractionDigits) last number
  rcases render_cases layout d with ⟨whole, fraction, parts, text⟩ |
    ⟨whole, fraction, zeros, parts, text⟩
  · have digits := significand_mantissa parts.wholeDigits parts.fractionDigits (.inl rfl)
    rw [List.append_nil] at digits
    rw [text, digits, trimmed parts]
  · rw [text, significand_mantissa parts.wholeDigits parts.fractionDigits (.inr ⟨_, rfl⟩),
      trimmed parts]

/-- A decimal is written with an exponent if its leading digit is outside the range in which the
layout is positional. -/
theorem e_mem_render_iff (layout : Layout) (d : Decimal) :
    'e' ∈ render layout d ↔
      d.leading < layout.positionalFrom ∨ layout.positionalBelow ≤ d.leading := by
  by_cases positioned : layout.positionalFrom ≤ d.leading ∧ d.leading < layout.positionalBelow
  · obtain ⟨whole, fraction, parts, text⟩ := d.positional_eq
    have positional : render layout d = mantissa whole fraction := (if_pos positioned).trans text
    rw [positional]
    refine iff_of_false (fun member => ?_) (by omega)
    exact ne_e_of_mem_mantissa parts.wholeDigits parts.fractionDigits member rfl
  · obtain ⟨whole, fraction, zeros, parts, text⟩ := scientific_eq layout d
    have scientific : render layout d = mantissa whole fraction ++ 'e' :: exponentText zeros _ :=
      (if_neg positioned).trans text
    rw [scientific]
    exact iff_of_true (List.mem_append_right _ List.mem_cons_self) (by omega)

/-- A text spells a decimal with a sign: its significant digits are those of the decimal, and it is
read as a numeral that stands for the same number. -/
structure Spelled (d : Decimal) (text : String) (negative : Bool) : Prop where
  significand : significand text.toList = Nat.toDigits 10 d.digits
  numeral : ∃ digits exponent, ofText? text = some (.scaled negative digits 10 exponent) ∧
    value digits exponent = value d.digits d.exponent

end Decimal

namespace Value

open Decimal Numeral

/-- A decimal with a sign is rounded once when it is read. -/
theorem roundedFrom_round (negative : Bool) (digits : Nat) (exponent : Int) :
    RoundedFrom negative (value digits exponent)
      (Numeral.scaled negative digits 10 exponent).round := by
  cases exponent with
  | ofNat e =>
      have rounded := roundedFrom_ofRatio negative (digits * 10 ^ e) Nat.one_pos
      rwa [Nat.cast_one, div_one, ← value_natCast] at rounded
  | negSucc e =>
      have power : 0 < 10 ^ (e + 1) := Nat.pow_pos (by decide)
      have rounded := roundedFrom_ofRatio negative digits power
      have same : value digits (Int.negSucc e) = (digits : ℚ) / ((10 ^ (e + 1) : Nat) : ℚ) := by
        rw [value, zpow_negSucc]
        push_cast
        rfl
      rwa [same]

section Finite

variable {k : Fin (binary32.top + 1)} (nonzero : 0 < k.val) (finite : k.val < binary32.top)
  (negative : Bool)
include nonzero

theorem roundedFrom_shortest :
    RoundedFrom negative (value (shortest binary32 k).digits (shortest binary32 k).exponent)
      (.signed negative k) := by
  obtain ⟨y, contained, center⟩ := shortest_contained (f := binary32) nonzero
  have rounded := round_of_contained (by decide) nonzero contained center negative
  rw [← rounded]
  exact roundedFrom_round negative _ _

theorem e_mem_renderFinite_iff :
    'e' ∈ (Floating.renderFinite (f := binary32) layout negative k).toList ↔
      (shortest binary32 k).leading < -4 ∨ 6 ≤ (shortest binary32 k).leading := by
  rw [toList_renderFinite nonzero]
  refine Iff.trans ?_ (e_mem_render_iff layout (shortest binary32 k))
  split
  · rw [List.mem_cons, or_iff_right (by decide)]
  · exact Iff.rfl

include finite

theorem spelled_renderFinite :
    (shortest binary32 k).Spelled (Floating.renderFinite (f := binary32) layout negative k)
      negative := by
  obtain ⟨-, -, -, -, -, -, last, -⟩ := shortest_found (f := binary32) nonzero
  obtain ⟨digits, exponent, same, read⟩ :=
    ofChars?_render layout (leading_small nonzero finite) negative
  constructor
  · rw [toList_renderFinite nonzero, significand_sign, significand_render layout last]
  · refine ⟨digits, exponent, ?_, same⟩
    rw [ofText?, toList_renderFinite nonzero, read]

end Finite

/-- What is rounded to a finite value has the rank of the value as the nearest one. -/
theorem isNearest_of_roundedFrom {sign negative : Bool} {x : ℚ} {k : Fin (binary32.top + 1)}
    (finite : k.val < binary32.top) (rounded : RoundedFrom sign x (.signed negative k)) :
    binary32.IsNearest x k := by
  obtain ⟨j, same, -, nearest⟩ := rounded
  cases same
  exact nearest (beq_eq_false_iff_ne.mpr (Nat.ne_of_lt finite))

end Value

/-- A finite value other than zero is written as a decimal that is rounded to the value, and that
has as few digits as any such decimal; of those with as few digits none is nearer to the value. An
exponent is written if and only if the decimal exponent of the digits is below `-4` or at least
`6`. Distances are between magnitudes: a decimal that is rounded to the value has its sign. -/
theorem render_fewest_digits {v : Value} (number : v ≠ .nan) (finite : v.isInfinite = false)
    (nonzero : v.isZero = false) :
    ∃ d : Decimal, d.Spelled v.render v.isNegative ∧
      Value.RoundedFrom v.isNegative (Decimal.value d.digits d.exponent) v ∧
      (∀ {negative : Bool} {m : Nat} {e : Int},
        Value.RoundedFrom negative (Decimal.value m e) v →
          digitCount d.digits ≤ digitCount m ∧
            (digitCount m = digitCount d.digits →
              |Decimal.value d.digits d.exponent - v.units / binary32.one| ≤
                |Decimal.value m e - v.units / binary32.one|)) ∧
      ('e' ∈ v.render.toList ↔ d.leading < -4 ∨ 6 ≤ d.leading) := by
  rcases v with _ | ⟨negative, k⟩
  · exact absurd rfl number
  · have apart : k.val ≠ binary32.top := beq_eq_false_iff_ne.mp finite
    have below : k.val < binary32.top := Nat.lt_of_le_of_ne (Nat.le_of_lt_succ k.isLt) apart
    have positive : 0 < k.val := Nat.pos_of_ne_zero (beq_eq_false_iff_ne.mp nonzero)
    rw [Value.render_signed, if_neg apart]
    refine ⟨Decimal.shortest binary32 k, Value.spelled_renderFinite positive below negative,
      Value.roundedFrom_shortest positive negative, fun rounded => ?_,
      Value.e_mem_renderFinite_iff positive negative⟩
    exact Decimal.shortest_fewest (by decide) positive
      (Value.isNearest_of_roundedFrom below rounded)

/-- The least value above zero is about `1.4e-45`. Its interval reaches from half of it to one and
a half of it, so one digit is enough. -/
theorem render_fewest_digits_least :
    let least : Value := .signed false 1
    least.render = "1e-45" ∧
      ∃ d : Decimal, d.Spelled "1e-45" false ∧
        Value.RoundedFrom false (Decimal.value d.digits d.exponent) least ∧
        (d.leading < -4 ∨ 6 ≤ d.leading) := by
  intro least
  have text : least.render = "1e-45" := by decide +kernel
  obtain ⟨d, spelled, rounded, -, marked⟩ :=
    @render_fewest_digits least (by decide) (by decide) (by decide)
  rw [text] at spelled marked
  exact ⟨text, d, spelled, rounded, marked.mp (by decide)⟩

end ReversePolish
