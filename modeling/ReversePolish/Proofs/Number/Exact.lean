import ReversePolish.Proofs.Number.Rounding

/-!
Results that rounding leaves as they are.

A whole number is `Short` if all its binary digits but a few are zeros at the end. The magnitudes of
a format are short numbers of units, and a short number of units below infinity is a magnitude
(`Format.exists_exact`), so a result that is known to be short is not rounded
(`Floating.isExactly_ofUnits`). Truncation, remainders and changes of the format lead from short
numbers to short ones. For the remainder it is the lesser of the two steps that counts: the remainder
is a multiple of it, with no more steps than one of the operands has.
-/

namespace ReversePolish

/-! ## Numbers with few significant bits -/

/-- The number has at most `p` significant bits. -/
def Short (p n : Nat) : Prop :=
  ∃ m e, m < 2 ^ p ∧ n = m * 2 ^ e

namespace Short

variable {p n d : Nat}

theorem of_lt (small : n < 2 ^ p) : Short p n :=
  ⟨n, 0, small, (Nat.mul_one n).symm⟩

theorem mono (short : Short p n) {q : Nat} (le : p ≤ q) : Short q n := by
  rcases short with ⟨m, e, small, rfl⟩
  exact ⟨m, e, Nat.lt_of_lt_of_le small (Nat.pow_le_pow_right (by decide) le), rfl⟩

theorem shift (short : Short p n) (e : Nat) : Short p (n * 2 ^ e) := by
  rcases short with ⟨m, d, small, rfl⟩
  exact ⟨m, d + e, small, by rw [Nat.pow_add, Nat.mul_assoc]⟩

/-- Dropping digits at the end makes no number longer. -/
theorem div_two_pow (short : Short p n) (e : Nat) : Short p (n / 2 ^ e) := by
  rcases short with ⟨m, d, small, rfl⟩
  rcases Nat.le_total e d with le | le
  · rcases Nat.exists_eq_add_of_le le with ⟨s, rfl⟩
    refine ⟨m, s, small, ?_⟩
    rw [Nat.pow_add, Nat.mul_left_comm]
    exact Nat.mul_div_cancel_left _ (Nat.two_pow_pos e)
  · rcases Nat.exists_eq_add_of_le le with ⟨s, rfl⟩
    have quotient : m * 2 ^ d / 2 ^ (d + s) = m / 2 ^ s := by
      rw [Nat.pow_add, Nat.mul_comm m]
      exact Nat.mul_div_mul_left _ _ (Nat.two_pow_pos d)
    rw [quotient]
    exact of_lt (Nat.lt_of_le_of_lt (Nat.div_le_self _ _) small)

/-- The remainder is a multiple of both steps. It has no more of the larger ones than the divisor,
and no more of the smaller ones than the dividend, if the dividend has the smaller ones. -/
theorem mod (left : Short p n) (right : Short p d) : Short p (n % d) := by
  rcases left with ⟨m, e, small, rfl⟩
  rcases right with ⟨k, s, small', rfl⟩
  rcases Nat.le_total e s with le | le
  · rcases Nat.exists_eq_add_of_le le with ⟨t, rfl⟩
    have multiple : m * 2 ^ e % (k * 2 ^ (e + t)) = m % (k * 2 ^ t) * 2 ^ e := by
      rw [← Nat.mul_mod_mul_right, Nat.mul_assoc k, ← Nat.pow_add, Nat.add_comm t e]
    rw [multiple]
    exact ⟨_, e, Nat.lt_of_le_of_lt (Nat.mod_le _ _) small, rfl⟩
  · rcases Nat.exists_eq_add_of_le le with ⟨t, rfl⟩
    have multiple : m * 2 ^ (s + t) % (k * 2 ^ s) = m * 2 ^ t % k * 2 ^ s := by
      rw [← Nat.mul_mod_mul_right, Nat.mul_assoc m, ← Nat.pow_add, Nat.add_comm t s]
    rcases Nat.eq_zero_or_pos k with rfl | positive
    · rw [Nat.zero_mul, Nat.mod_zero]
      exact ⟨m, s + t, small, rfl⟩
    · rw [multiple]
      exact ⟨_, s, Nat.lt_trans (Nat.mod_lt _ positive) small', rfl⟩

end Short

namespace Format

variable {f : Format}

theorem short_units (wide : 1 ≤ f.precision) (k : Nat) : Short f.precision (f.units k) := by
  rcases f.rank_eq k with ⟨-, below, -⟩
  rw [two_mul_binade wide] at below
  exact ⟨f.steps k, f.doublings k, below, rfl⟩

/-- A short number of units is the magnitude of a rank, before infinity if it is below it. -/
theorem exists_exact (wide : 1 ≤ f.precision) {n : Nat} (short : Short f.precision n)
    (below : n < f.units f.top) : ∃ k, k < f.top ∧ f.units k = n := by
  rcases short with ⟨m, e, small, rfl⟩
  rcases exists_rank wide small e with ⟨k, rank⟩
  rw [← rank] at below
  exact ⟨k, f.units_strictMono.lt_iff_lt.mp below, rank⟩

/-- The magnitude of a rank is rounded to the rank. -/
theorem nearest_units (wide : 2 ≤ f.precision) {k d : Nat} (finite : k ≤ f.top)
    (positive : 0 < d) : f.nearest (f.units k * d) d = k := by
  have before : f.units (k - 1) * d ≤ f.units k * d :=
    Nat.mul_le_mul_right d (f.units_strictMono.monotone (Nat.sub_le k 1))
  have behind : f.units k * d < f.units (k + 1) * d :=
    Nat.mul_lt_mul_of_pos_right (f.units_lt_succ k) positive
  have between : f.Between k (f.units k * d) d := by
    refine ⟨?_, ?_, fun odd => ?_⟩
    · rw [Nat.add_mul]
      omega
    · rw [Nat.add_mul]
      omega
    · have lower : f.units (k - 1) * d < f.units k * d :=
        Nat.mul_lt_mul_of_pos_right (f.units_strictMono (by omega)) positive
      simp only [Nat.add_mul]
      omega
  rw [between.nearest_eq_min wide positive]
  exact Nat.min_eq_left finite

/-- Every finite magnitude of the one format is one of the other, and so are its units. -/
structure Within (f g : Format) : Prop where
  precision : f.precision ≤ g.precision
  scale : f.scale ≤ g.scale
  top : f.units f.top * 2 ^ (g.scale - f.scale) ≤ g.units g.top

theorem binary32_within_binary64 : binary32.Within binary64 :=
  ⟨by decide, by decide, by decide +kernel⟩

theorem one_eq_shift {g : Format} (within : f.Within g) :
    g.one = 2 ^ (g.scale - f.scale) * f.one := by
  show 2 ^ g.scale = 2 ^ (g.scale - f.scale) * 2 ^ f.scale
  rw [← Nat.pow_add, Nat.sub_add_cancel within.scale]

end Format

namespace Floating

variable {f g : Format} {a b : Floating f} {negative negative' : Bool} {n m : Nat}

/-- A finite number, by its sign and by its magnitude in units. -/
structure IsExactly (a : Floating f) (negative : Bool) (n : Nat) : Prop where
  finite : a.isFinite = true
  sign : a.isNegative = negative
  units : a.units = n

theorem isExactly_signed {k : Fin (f.top + 1)} (finite : k.val < f.top) :
    (signed negative k : Floating f).IsExactly negative (f.units k) := by
  refine ⟨?_, rfl, rfl⟩
  simp [isFinite, isNaN, isInfinite, Nat.ne_of_lt finite]

/-- A finite number is a sign and a rank before infinity. -/
theorem exists_rank_of_isFinite (finite : a.isFinite = true) :
    ∃ negative k, a = signed negative k ∧ k.val < f.top := by
  cases a with
  | nan => cases finite
  | signed negative k =>
      refine ⟨negative, k, rfl, ?_⟩
      have bound := k.isLt
      simp [isFinite, isNaN, isInfinite] at finite
      omega

theorem isExactly_self (finite : a.isFinite = true) : a.IsExactly a.isNegative a.units :=
  ⟨finite, rfl, rfl⟩

/-- Rounding leaves a short number of units as it is. -/
theorem isExactly_ofUnits (wide : 2 ≤ f.precision) (short : Short f.precision n)
    (below : n < f.units f.top) {d : Nat} (positive : 0 < d) (negative : Bool) :
    (ofUnits negative (n * d) d : Floating f).IsExactly negative n := by
  rcases Format.exists_exact (by omega) short below with ⟨k, finite, rfl⟩
  have rounded : f.nearest (f.units k * d) d = k :=
    Format.nearest_units wide (Nat.le_of_lt finite) positive
  have same : (ofUnits negative (f.units k * d) d : Floating f) =
      signed negative ⟨k, Nat.lt_succ_of_lt finite⟩ := by
    simp only [ofUnits, rounded]
  rw [same]
  exact isExactly_signed finite

namespace IsExactly

variable (exact : a.IsExactly negative n)
include exact

theorem units_lt : n < f.units f.top := by
  rcases exists_rank_of_isFinite exact.finite with ⟨s, k, rfl, below⟩
  rw [← exact.units]
  exact f.units_strictMono below

theorem short (wide : 1 ≤ f.precision) : Short f.precision n := by
  rcases exists_rank_of_isFinite exact.finite with ⟨s, k, rfl, below⟩
  rw [← exact.units]
  exact Format.short_units wide k

theorem isZero_iff : a.isZero = true ↔ n = 0 := by
  rcases exists_rank_of_isFinite exact.finite with ⟨s, k, rfl, below⟩
  have units : f.units k = n := exact.units
  rw [← units, ← f.units_zero, f.units_strictMono.injective.eq_iff]
  exact beq_iff_eq

theorem natAbs_whole : a.whole.natAbs = n / f.one := by
  rcases exists_rank_of_isFinite exact.finite with ⟨s, k, rfl, below⟩
  rw [natAbs_whole_signed, ← exact.units]
  rfl

/-- A number of another format that is short there is found exactly. -/
theorem convert (wide : 2 ≤ g.precision) (same : n * g.one = m * f.one)
    (short : Short g.precision m) (below : m < g.units g.top) :
    (a.convert : Floating g).IsExactly negative m := by
  rcases exists_rank_of_isFinite exact.finite with ⟨s, k, rfl, finite⟩
  have sign : s = negative := exact.sign
  have units : f.units k = n := exact.units
  have converted : ((signed s k : Floating f).convert : Floating g) =
      ofUnits negative (m * f.one) f.one := by
    simp only [Floating.convert, if_neg (Nat.ne_of_lt finite), ofRatio, units, same, sign]
  rw [converted]
  exact isExactly_ofUnits wide short below (Nat.two_pow_pos _) negative

/-- A finer format of a larger range has all numbers. -/
theorem widen (wide : 2 ≤ f.precision) (within : f.Within g) :
    (a.convert : Floating g).IsExactly negative (n * 2 ^ (g.scale - f.scale)) := by
  have finer : 2 ≤ g.precision := Nat.le_trans wide within.precision
  refine exact.convert finer ?_ (((exact.short (by omega)).mono within.precision).shift _) ?_
  · rw [Format.one_eq_shift within, Nat.mul_assoc]
  · have less := Nat.mul_lt_mul_of_pos_right exact.units_lt
      (Nat.two_pow_pos (g.scale - f.scale))
    exact Nat.lt_of_lt_of_le less within.top

/-- The integer part of a number is a number. -/
theorem trunc (wide : 2 ≤ f.precision) : a.trunc.IsExactly negative (n / f.one * f.one) := by
  have short : Short f.precision (n / f.one * f.one) :=
    ((exact.short (by omega)).div_two_pow f.scale).shift f.scale
  have below : n / f.one * f.one < f.units f.top :=
    Nat.lt_of_le_of_lt (Nat.div_mul_le_self n f.one) exact.units_lt
  have rounded := isExactly_ofUnits wide short below Nat.one_pos negative
  rcases exists_rank_of_isFinite exact.finite with ⟨s, k, rfl, finite⟩
  have sign : s = negative := exact.sign
  have units : f.units k = n := exact.units
  simp only [Floating.trunc, mapWhole, if_neg (Nat.ne_of_lt finite), units, sign]
  rwa [Nat.mul_one] at rounded

/-- The remainder of two numbers is a number. -/
theorem rem (wide : 2 ≤ f.precision) (divisor : b.IsExactly negative' m) (nonzero : m ≠ 0) :
    (a.rem b).IsExactly negative (n % m) := by
  have short : Short f.precision (n % m) :=
    (exact.short (by omega)).mod (divisor.short (by omega))
  have below : n % m < f.units f.top :=
    Nat.lt_of_le_of_lt (Nat.mod_le n m) exact.units_lt
  have rounded := isExactly_ofUnits wide short below Nat.one_pos negative
  have finite := exact.finite
  have finite' := divisor.finite
  have other : ¬b.isZero = true := fun zero => nonzero (divisor.isZero_iff.mp zero)
  simp only [isFinite, Bool.and_eq_true, Bool.not_eq_true'] at finite finite'
  simp only [Floating.rem, finite, finite', other, exact.units, exact.sign, divisor.units,
    Bool.or_false, Bool.false_eq_true, if_false]
  rwa [Nat.mul_one] at rounded

end IsExactly

end Floating

end ReversePolish
