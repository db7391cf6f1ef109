import Mathlib.Tactic.Ring
import ReversePolish.Number.Floating

/-!
Rounding to the nearest rank.

A rank consists of a number of doublings and of a number of steps of the size that they give. What
lies between the two middles around the magnitude of a rank is rounded to this rank, the middles
themselves if the rank is even; this is `Format.Between.nearest_eq`. Only below the least rank of a
size of steps is there something to see: there the steps are half as large, and what is rounded up
to the rank has one binary digit less.
-/

namespace ReversePolish

theorem bitLength_le_iff {n l : Nat} : bitLength n ≤ l ↔ n < 2 ^ l := by
  unfold bitLength
  split
  · rename_i zero
    subst zero
    exact ⟨fun _ => Nat.two_pow_pos l, fun _ => Nat.zero_le l⟩
  · rename_i nonzero
    exact Nat.log2_lt nonzero

/-- What lies within half a step around a whole number is rounded to it; the ends of this interval
are if the number is even. -/
theorem divideToEven_eq {n d m : Nat} (positive : 0 < d) (low : 2 * (m * d) ≤ 2 * n + d)
    (high : 2 * n ≤ 2 * (m * d) + d)
    (inside : m % 2 = 1 → 2 * (m * d) < 2 * n + d ∧ 2 * n < 2 * (m * d) + d) :
    divideToEven n d = m := by
  have parts : n / d * d + n % d = n := Nat.div_add_mod' n d
  have small : n % d < d := Nat.mod_lt n positive
  have near : m = n / d ∨ m = n / d + 1 := by
    have notAbove : m < n / d + 2 := by
      by_contra above
      have := Nat.mul_le_mul_right d (Nat.not_lt.mp above)
      rw [Nat.add_mul] at this
      omega
    have notBelow : n / d < m + 1 := by
      by_contra below
      have := Nat.mul_le_mul_right d (Nat.not_lt.mp below)
      rw [Nat.add_mul, Nat.one_mul] at this
      omega
    omega
  unfold divideToEven
  dsimp only
  generalize n / d = q at *
  rcases near with rfl | rfl
  · split
    · rfl
    · split
      · omega
      · split <;> omega
  · rw [Nat.add_mul, Nat.one_mul] at low high inside
    split
    · omega
    · split
      · rfl
      · split
        · omega
        · rfl

namespace Format

variable {f : Format}

theorem binade_pos (f : Format) : 0 < f.binade :=
  Nat.two_pow_pos _

theorem binade_even (wide : 2 ≤ f.precision) : f.binade % 2 = 0 := by
  obtain ⟨p, width⟩ := Nat.exists_eq_add_of_le' wide
  have double : f.binade = 2 ^ p * 2 := by
    rw [binade, width]
    exact Nat.pow_succ 2 p
  omega

/-! ## Doublings and steps -/

/-- The number of steps in the magnitude of a rank. -/
def steps (f : Format) (k : Nat) : Nat :=
  k - f.doublings k * f.binade

theorem units_eq (f : Format) (k : Nat) : f.units k = f.steps k * 2 ^ f.doublings k :=
  rfl

/-- The magnitude of a rank over a denominator, in steps. -/
theorem units_mul (f : Format) (k d : Nat) :
    f.units k * d = f.steps k * (d * 2 ^ f.doublings k) := by
  rw [units_eq]
  ring

/-- A rank is a number of binades, one for each doubling, and a number of steps less than two
binades; once there is a doubling, the steps are at least one binade. -/
theorem rank_eq (f : Format) (k : Nat) :
    k = f.doublings k * f.binade + f.steps k ∧ f.steps k < 2 * f.binade ∧
      (f.doublings k = 0 ∨ f.binade ≤ f.steps k) := by
  have positive := f.binade_pos
  have parts : k / f.binade * f.binade + k % f.binade = k := Nat.div_add_mod' k f.binade
  have small : k % f.binade < f.binade := Nat.mod_lt k positive
  unfold steps doublings
  rcases quotient : k / f.binade with _ | q
  · rw [quotient, Nat.zero_mul] at parts
    rw [Nat.zero_sub, Nat.zero_mul]
    omega
  · rw [quotient, Nat.add_mul, Nat.one_mul] at parts
    rw [Nat.add_sub_cancel]
    omega

theorem doublings_eq {k e m : Nat} (rank : k = e * f.binade + m) (below : m < 2 * f.binade)
    (above : e = 0 ∨ f.binade ≤ m) : f.doublings k = e := by
  have positive := f.binade_pos
  unfold doublings
  rcases above with rfl | above
  · have : k / f.binade < 2 := (Nat.div_lt_iff_lt_mul positive).mpr (by omega)
    omega
  · have : k / f.binade = e + 1 := by
      refine Nat.div_eq_of_lt_le ?_ ?_
      · rw [Nat.add_mul, Nat.one_mul]
        omega
      · rw [Nat.add_mul, Nat.add_mul, Nat.one_mul]
        omega
    omega

/-- From each rank to the next it is one step. -/
theorem units_succ (f : Format) (k : Nat) :
    f.units (k + 1) = f.units k + 2 ^ f.doublings k := by
  obtain ⟨rank, below, above⟩ := f.rank_eq k
  have steps_of : ∀ {j e m : Nat}, j = e * f.binade + m → f.doublings j = e → f.steps j = m := by
    intro j e m rank same
    rw [steps, same]
    omega
  by_cases last : f.steps k + 1 < 2 * f.binade
  · have next : k + 1 = f.doublings k * f.binade + (f.steps k + 1) := by omega
    have same : f.doublings (k + 1) = f.doublings k := doublings_eq next last (by omega)
    rw [units_eq, units_eq, steps_of next same, same, Nat.add_mul, Nat.one_mul]
  · -- The steps are used up: the next rank starts a binade of steps that are twice as large.
    have next : k + 1 = (f.doublings k + 1) * f.binade + f.binade := by
      rw [Nat.add_mul, Nat.one_mul]
      omega
    have same : f.doublings (k + 1) = f.doublings k + 1 :=
      doublings_eq next (by omega) (.inr (Nat.le_refl _))
    have full : f.steps k + 1 = 2 * f.binade := by omega
    calc f.units (k + 1) = f.binade * 2 ^ (f.doublings k + 1) := by
          rw [units_eq, steps_of next same, same]
      _ = (f.steps k + 1) * 2 ^ f.doublings k := by
          rw [full, Nat.pow_succ]
          ring
      _ = f.units k + 2 ^ f.doublings k := by
          rw [units_eq, Nat.add_mul, Nat.one_mul]

theorem doublings_mono {j k : Nat} (le : j ≤ k) : f.doublings j ≤ f.doublings k :=
  Nat.sub_le_sub_right (Nat.div_le_div_right le) 1

theorem units_lt_succ (f : Format) (k : Nat) : f.units k < f.units (k + 1) := by
  have step := Nat.two_pow_pos (f.doublings k)
  have next := f.units_succ k
  omega

/-! ## Rounding -/

/-- The doublings that rounding finds, from the size of what is rounded. -/
theorem exponent_eq {n d e : Nat} (wide : 1 ≤ f.precision) (positive : 0 < d)
    (below : n < 2 * f.binade * (d * 2 ^ e)) (above : e = 0 ∨ f.binade * (d * 2 ^ e) ≤ n) :
    bitLength (n / d) - f.precision = e := by
  have most : bitLength (n / d) ≤ f.precision + e := by
    rw [bitLength_le_iff, Nat.div_lt_iff_lt_mul positive]
    have size : 2 * f.binade * (d * 2 ^ e) = 2 ^ (f.precision + e) * d := by
      obtain ⟨p, width⟩ := Nat.exists_eq_add_of_le' wide
      rw [binade, width, Nat.add_sub_cancel]
      show 2 * 2 ^ p * (d * 2 ^ e) = _
      ring
    omega
  rcases above with rfl | above
  · omega
  · have least : ¬bitLength (n / d) ≤ f.precision - 1 + e := by
      rw [bitLength_le_iff, Nat.div_lt_iff_lt_mul positive]
      have size : f.binade * (d * 2 ^ e) = 2 ^ (f.precision - 1 + e) * d := by
        show 2 ^ (f.precision - 1) * (d * 2 ^ e) = _
        ring
      omega
    omega

theorem nearest_of_exponent {n d e m k : Nat} (exponent : bitLength (n / d) - f.precision = e)
    (rounded : divideToEven n (d * 2 ^ e) = m) (rank : e * f.binade + m = k) (finite : k ≤ f.top) :
    f.nearest n d = k := by
  unfold nearest
  rw [exponent]
  show min (e * f.binade + divideToEven n (d * 2 ^ e)) f.top = k
  rw [rounded, rank]
  exact Nat.min_eq_left finite

/-- `n / d` units lie between the middles around the magnitude of a rank. The middles belong to an
even rank. -/
structure Between (f : Format) (k n d : Nat) : Prop where
  low : (f.units (k - 1) + f.units k) * d ≤ 2 * n
  high : 2 * n ≤ (f.units k + f.units (k + 1)) * d
  inside : k % 2 = 1 →
    (f.units (k - 1) + f.units k) * d < 2 * n ∧ 2 * n < (f.units k + f.units (k + 1)) * d

namespace Between

variable {k n d : Nat} (between : f.Between k n d)
include between

/-- The middle below, by the size `2 ^ e` of the step that leads to the rank. -/
theorem low_step (nonzero : 0 < k) {e : Nat} (step : f.doublings (k - 1) = e) :
    2 * (f.units k * d) ≤ 2 * n + d * 2 ^ e ∧
      (k % 2 = 1 → 2 * (f.units k * d) < 2 * n + d * 2 ^ e) := by
  have before : f.units k * d = f.units (k - 1) * d + d * 2 ^ e := by
    have next := f.units_succ (k - 1)
    rw [Nat.sub_add_cancel nonzero, step] at next
    rw [next]
    ring
  have low := between.low
  rw [Nat.add_mul] at low
  refine ⟨by omega, fun odd => ?_⟩
  have strict := (between.inside odd).1
  rw [Nat.add_mul] at strict
  omega

/-- The middle below, in steps: the step that leads to a rank is not larger than the one that leads
from it. -/
theorem low_steps (nonzero : 0 < k) :
    2 * (f.steps k * (d * 2 ^ f.doublings k)) ≤ 2 * n + d * 2 ^ f.doublings k ∧
      (k % 2 = 1 →
        2 * (f.steps k * (d * 2 ^ f.doublings k)) < 2 * n + d * 2 ^ f.doublings k) := by
  have smaller : d * 2 ^ f.doublings (k - 1) ≤ d * 2 ^ f.doublings k :=
    Nat.mul_le_mul_left d (Nat.pow_le_pow_right (by decide) (doublings_mono (Nat.sub_le k 1)))
  obtain ⟨low, strict⟩ := between.low_step nonzero rfl
  rw [units_mul] at low strict
  refine ⟨by omega, fun odd => ?_⟩
  have := strict odd
  omega

/-- The middle above, in steps. -/
theorem high_steps :
    2 * n ≤ 2 * (f.steps k * (d * 2 ^ f.doublings k)) + d * 2 ^ f.doublings k ∧
      (k % 2 = 1 →
        2 * n < 2 * (f.steps k * (d * 2 ^ f.doublings k)) + d * 2 ^ f.doublings k) := by
  have after : (f.units k + f.units (k + 1)) * d =
      2 * (f.steps k * (d * 2 ^ f.doublings k)) + d * 2 ^ f.doublings k := by
    rw [units_succ, ← units_mul]
    ring
  have high := between.high
  rw [after] at high
  refine ⟨high, fun odd => ?_⟩
  have strict := (between.inside odd).2
  rwa [after] at strict

/-- Rounding in steps of the size that the rank has. -/
theorem nearest_of_steps (wide : 2 ≤ f.precision) (nonzero : 0 < k) (finite : k ≤ f.top)
    (positive : 0 < d)
    (reached : f.doublings k = 0 ∨ f.binade * (d * 2 ^ f.doublings k) ≤ n) :
    f.nearest n d = k := by
  obtain ⟨rank, below, -⟩ := f.rank_eq k
  obtain ⟨low, lowStrict⟩ := between.low_steps nonzero
  obtain ⟨high, highStrict⟩ := between.high_steps
  have unit : 0 < d * 2 ^ f.doublings k := Nat.mul_pos positive (Nat.two_pow_pos _)
  have limit : n < 2 * f.binade * (d * 2 ^ f.doublings k) := by
    have := Nat.mul_le_mul_right (d * 2 ^ f.doublings k) below
    rw [Nat.succ_mul] at this
    omega
  have parity : f.steps k % 2 = k % 2 := by
    have even : f.doublings k * f.binade % 2 = 0 := by
      rw [Nat.mul_mod, binade_even wide, Nat.mul_zero]
    omega
  have rounded : divideToEven n (d * 2 ^ f.doublings k) = f.steps k :=
    divideToEven_eq unit low high
      (fun odd => ⟨lowStrict (parity ▸ odd), highStrict (parity ▸ odd)⟩)
  exact nearest_of_exponent (exponent_eq (by omega) positive limit reached) rounded rank.symm finite

/-- Rounding in steps of half the size: what is rounded lies below the magnitude of the rank, which
is the least one with its steps. -/
theorem nearest_of_half_steps (wide : 2 ≤ f.precision) (nonzero : 0 < k) (finite : k ≤ f.top)
    (positive : 0 < d) {e : Nat} (doubled : f.doublings k = e + 1)
    (unreached : n < f.binade * (d * 2 ^ f.doublings k)) : f.nearest n d = k := by
  obtain ⟨rank, -, above⟩ := f.rank_eq k
  obtain ⟨low, -⟩ := between.low_steps nonzero
  have some := f.binade_pos
  have least : f.steps k = f.binade := by
    refine Nat.le_antisymm ?_ (above.resolve_left (by omega))
    by_contra more
    have := Nat.mul_le_mul_right (d * 2 ^ f.doublings k) (Nat.not_le.mp more)
    rw [Nat.succ_mul] at this
    omega
  have halved : f.doublings (k - 1) = e := by
    rw [doubled, Nat.add_mul, Nat.one_mul] at rank
    exact doublings_eq (m := 2 * f.binade - 1) (by omega) (by omega) (.inr (by omega))
  have half : d * 2 ^ f.doublings k = 2 * (d * 2 ^ e) := by
    rw [doubled, Nat.pow_succ]
    ring
  have magnitude : f.units k * d = 2 * f.binade * (d * 2 ^ e) := by
    rw [units_mul, least, half, Nat.mul_left_comm, Nat.mul_assoc]
  obtain ⟨low, -⟩ := between.low_step nonzero halved
  rw [magnitude] at low
  rw [half, Nat.mul_left_comm, ← Nat.mul_assoc] at unreached
  have unit : 0 < d * 2 ^ e := Nat.mul_pos positive (Nat.two_pow_pos _)
  have several : d * 2 ^ e ≤ f.binade * (d * 2 ^ e) := Nat.le_mul_of_pos_left _ some
  have reached : f.binade * (d * 2 ^ e) ≤ n := by
    rw [Nat.mul_assoc] at low
    omega
  have rounded : divideToEven n (d * 2 ^ e) = 2 * f.binade :=
    divideToEven_eq unit low (by omega) (by omega)
  refine nearest_of_exponent (exponent_eq (by omega) positive unreached (.inr reached)) rounded ?_
    finite
  rw [doubled, Nat.add_mul, Nat.one_mul] at rank
  omega

/-- What lies between the middles around the magnitude of a rank is rounded to the rank. -/
theorem nearest_eq (wide : 2 ≤ f.precision) (nonzero : 0 < k) (finite : k ≤ f.top)
    (positive : 0 < d) : f.nearest n d = k := by
  rcases doubled : f.doublings k with _ | e
  · exact between.nearest_of_steps wide nonzero finite positive (.inl doubled)
  · rcases Nat.lt_or_ge n (f.binade * (d * 2 ^ f.doublings k)) with unreached | reached
    · exact between.nearest_of_half_steps wide nonzero finite positive doubled unreached
    · exact between.nearest_of_steps wide nonzero finite positive (.inr reached)

end Between

end Format

end ReversePolish
