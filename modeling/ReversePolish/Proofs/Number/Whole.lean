import Mathlib.Tactic.Ring
import ReversePolish.Proofs.Number.Nearest

/-!
Whole numbers in numbers.

The integer part of a finite number is the quotient of its magnitude by one, rounded toward zero. As
a count it has to fit into 64 bits with a sign. A count of single precision has room for one more:
beyond the precision of a format all whole numbers are even, and the greatest number of 64 bits is
odd.
-/

namespace ReversePolish

namespace Format

variable {f : Format}

theorem two_mul_binade (wide : 1 ≤ f.precision) : 2 * f.binade = 2 ^ f.precision := by
  obtain ⟨p, width⟩ := Nat.exists_eq_add_of_le' wide
  rw [binade, width, Nat.add_sub_cancel, Nat.pow_succ, Nat.mul_comm]
  rfl

/-- A whole part that has more digits than the precision is even: the steps between the magnitudes
there are larger than one. -/
theorem whole_even {k : Nat} (wide : 1 ≤ f.precision)
    (large : 2 ^ f.precision ≤ f.units k / f.one) : f.units k / f.one % 2 = 0 := by
  have positive : 0 < f.one := Nat.two_pow_pos _
  obtain ⟨-, below, -⟩ := f.rank_eq k
  rw [two_mul_binade wide] at below
  have doubled : f.scale < f.doublings k := by
    have reached : 2 ^ f.precision * 2 ^ f.scale ≤ f.units k :=
      (Nat.le_div_iff_mul_le positive).mp large
    have bounded : f.units k < 2 ^ f.precision * 2 ^ f.doublings k := by
      rw [f.units_eq]
      exact Nat.mul_lt_mul_of_pos_right below (Nat.two_pow_pos _)
    have smaller : 2 ^ f.scale < 2 ^ f.doublings k :=
      Nat.lt_of_mul_lt_mul_left (Nat.lt_of_le_of_lt reached bounded)
    exact (Nat.pow_lt_pow_iff_right (by decide)).mp smaller
  obtain ⟨e, doublings⟩ := Nat.exists_eq_add_of_lt doubled
  have magnitude : f.units k = f.steps k * 2 ^ e * 2 * f.one := by
    rw [f.units_eq, doublings, one]
    show f.steps k * 2 ^ (f.scale + e + 1) = f.steps k * 2 ^ e * 2 * 2 ^ f.scale
    ring
  rw [magnitude, Nat.mul_div_cancel _ positive, Nat.mul_mod_left]

end Format

namespace Floating

variable {f : Format}

def isFinite (a : Floating f) : Bool :=
  !a.isNaN && !a.isInfinite

/-- The number divided by one, without what is behind the point. -/
def whole (a : Floating f) : Int :=
  a.signedUnits.tdiv f.one

theorem whole_signed (negative : Bool) (k : Fin (f.top + 1)) :
    (signed negative k).whole =
      if negative then -((f.units k / f.one : Nat) : Int) else (f.units k / f.one : Nat) := by
  show (if negative then -(f.units k : Int) else f.units k).tdiv f.one = _
  cases negative with
  | false => exact (Int.ofNat_tdiv _ _).symm
  | true => exact (Int.neg_tdiv _ _).trans (congrArg Neg.neg (Int.ofNat_tdiv _ _).symm)

theorem natAbs_whole_signed (negative : Bool) (k : Fin (f.top + 1)) :
    (signed negative k).whole.natAbs = f.units k / f.one := by
  rw [whole_signed]
  cases negative with
  | false => exact Int.natAbs_natCast _
  | true => exact (Int.natAbs_neg _).trans (Int.natAbs_natCast _)

theorem integerPart?_eq (a : Floating f) :
    a.integerPart? = if a.isFinite then some a.whole else none := by
  cases a with
  | nan => rfl
  | signed negative k =>
      have finite : (signed negative k).isFinite = !(k.val == f.top) := rfl
      rw [finite, whole_signed, integerPart?]
      by_cases top : k.val = f.top <;> simp [top]

theorem count_eq (a : Floating f) :
    a.count =
      if a.isFinite ∧ leastCount ≤ a.whole ∧ a.whole < countLimit then a.whole
      else leastCount := by
  unfold count
  rw [integerPart?_eq]
  cases a.isFinite <;> simp

theorem leastCount_le_count (a : Floating f) : leastCount ≤ a.count := by
  rw [count_eq]
  split
  · rename_i fits
    exact fits.2.1
  · exact Int.le_refl _

/-- The greatest number of 64 bits is no count, so a count can be raised by one. -/
theorem count_add_one_lt (a : Floating binary32) : a.count + 1 < countLimit := by
  rw [count_eq]
  split
  · rename_i fits
    obtain ⟨finite, -, below⟩ := fits
    by_contra full
    have greatest : a.whole = 2 ^ 63 - 1 := by
      have limit : countLimit = 2 ^ 63 := rfl
      omega
    cases a with
    | nan => cases finite
    | signed negative k =>
        have odd : binary32.units k / binary32.one = 2 ^ 63 - 1 := by
          rw [← natAbs_whole_signed negative k, greatest]
          rfl
        have even := binary32.whole_even (k := k) (by decide) (by rw [odd]; decide)
        rw [odd] at even
        exact absurd even (by decide)
  · decide

end Floating

end ReversePolish
