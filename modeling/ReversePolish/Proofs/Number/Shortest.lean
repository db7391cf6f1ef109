import Mathlib.Algebra.Order.Field.Rat
import Mathlib.Tactic.FieldSimp
import Mathlib.Tactic.NormNum
import ReversePolish.Number.Numeral
import ReversePolish.Number.Shortest
import ReversePolish.Proofs.Number.Nearest

/-!
The shortest decimal of a number is rounded to the number.

The search takes only points of the interval around the number, and it finds one at the latest on
the finest grid, where the number itself is a point. What lies in the interval is between the
middles around the number, so it is rounded to it, whichever digits and exponent it is written with.
-/

namespace ReversePolish

namespace Decimal

variable {f : Format} {k : Nat}

/-! ## Intervals -/

theorem bounds_of_contains {x : Nat} (contained : (interval f k).contains x = true) :
    (interval f k).low ≤ x ∧ x ≤ (interval f k).high ∧
      (k % 2 = 1 → (interval f k).low < x ∧ x < (interval f k).high) := by
  unfold Interval.contains at contained
  split at contained
  · rename_i closed
    rw [Bool.and_eq_true, decide_eq_true_eq, decide_eq_true_eq] at contained
    have even : k % 2 = 0 := by simpa [interval] using closed
    exact ⟨contained.1, contained.2, by omega⟩
  · rw [Bool.and_eq_true, decide_eq_true_eq, decide_eq_true_eq] at contained
    exact ⟨contained.1.le, contained.2.le, fun _ => contained⟩

/-- What lies in the interval of a rank, in decimal steps, lies between the middles around it, in
units. -/
theorem between_of_contains {y n d : Nat} (contained : (interval f k).contains (2 * y) = true)
    (positive : 0 < d) (same : n * 5 ^ f.scale = y * d) : f.Between k n d := by
  obtain ⟨low, high, inside⟩ := bounds_of_contains contained
  have five : 0 < 5 ^ f.scale := Nat.pow_pos (by decide)
  -- Bounds on `2 * y` decimal steps become bounds on `2 * n / d` units.
  have scaled : ∀ u : Nat, u * d * 5 ^ f.scale = u * 5 ^ f.scale * d := fun u => by ring
  have doubled : 2 * n * 5 ^ f.scale = 2 * y * d := by
    rw [Nat.mul_assoc, same, Nat.mul_assoc]
  refine ⟨?_, ?_, fun odd => ⟨?_, ?_⟩⟩
  · refine Nat.le_of_mul_le_mul_right ?_ five
    rw [scaled, doubled]
    exact Nat.mul_le_mul_right d low
  · refine Nat.le_of_mul_le_mul_right ?_ five
    rw [scaled, doubled]
    exact Nat.mul_le_mul_right d high
  · refine Nat.lt_of_mul_lt_mul_right (a := 5 ^ f.scale) ?_
    rw [scaled, doubled]
    exact Nat.mul_lt_mul_of_pos_right (inside odd).1 positive
  · refine Nat.lt_of_mul_lt_mul_right (a := 5 ^ f.scale) ?_
    rw [scaled, doubled]
    exact Nat.mul_lt_mul_of_pos_right (inside odd).2 positive

theorem contains_center (nonzero : 0 < k) :
    (interval f k).contains (interval f k).center = true := by
  have five : 0 < 5 ^ f.scale := Nat.pow_pos (by decide)
  have below : f.units (k - 1) < f.units k := by
    have step := f.units_lt_succ (k - 1)
    rwa [Nat.sub_add_cancel nonzero] at step
  have above := f.units_lt_succ k
  have low : (interval f k).low < (interval f k).center :=
    Nat.mul_lt_mul_of_pos_right (by omega) five
  have high : (interval f k).center < (interval f k).high :=
    Nat.mul_lt_mul_of_pos_right (by omega) five
  unfold Interval.contains
  split
  · simp [low.le, high.le]
  · simp [low, high]

namespace Interval

variable {i : Interval} {t q : Nat}

/-- The point that is taken on a grid is one of the two around the center, and in the interval. -/
theorem pointOn?_spec (found : i.pointOn? t = some q) :
    i.contains (q * (2 * 10 ^ t)) = true ∧ q ≤ i.center / (2 * 10 ^ t) + 1 := by
  unfold pointOn? at found
  dsimp only at found
  split at found
  · rename_i below above
    split at found
    · cases found
      exact ⟨below, Nat.le_succ _⟩
    · cases found
      exact ⟨above, Nat.le_refl _⟩
  · rename_i below outside
    cases found
    exact ⟨below, Nat.le_succ _⟩
  · rename_i outside above
    cases found
    exact ⟨above, Nat.le_refl _⟩
  · cases found

/-- The point that the search ends with is in the interval, and on one of the grids looked at. -/
theorem coarsest_spec (center : i.contains (i.center / 2 * 2) = true) (t : Nat) :
    i.contains ((i.coarsest t).1 * (2 * 10 ^ (i.coarsest t).2)) = true ∧
      (i.coarsest t).1 ≤ i.center / 2 + 1 ∧ (i.coarsest t).2 ≤ t := by
  induction t with
  | zero =>
      unfold coarsest
      cases found : i.pointOn? 0 with
      | none => exact ⟨center, Nat.le_succ _, Nat.le_refl _⟩
      | some q =>
          obtain ⟨contained, near⟩ := pointOn?_spec found
          exact ⟨contained, near, Nat.le_refl _⟩
  | succ t ih =>
      unfold coarsest
      cases found : i.pointOn? (t + 1) with
      | none =>
          obtain ⟨contained, near, grid⟩ := ih
          exact ⟨contained, near, Nat.le_succ_of_le grid⟩
      | some q =>
          obtain ⟨contained, near⟩ := pointOn?_spec found
          have finer : i.center / (2 * 10 ^ (t + 1)) ≤ i.center / 2 :=
            Nat.div_le_div_left (Nat.le_mul_of_pos_right 2 (Nat.pow_pos (by decide)))
              (by decide)
          exact ⟨contained, by dsimp only; omega, Nat.le_refl _⟩

end Interval

/-! ## Values -/

/-- The number that digits with an exponent stand for. -/
def value (digits : Nat) (exponent : Int) : ℚ :=
  digits * 10 ^ exponent

theorem value_natCast (digits e : Nat) : value digits e = ((digits * 10 ^ e : Nat) : ℚ) := by
  rw [value, zpow_natCast]
  push_cast
  rfl

theorem value_mul_pow (digits : Nat) (exponent : Int) (n : Nat) :
    value digits exponent * 10 ^ n = value digits (exponent + n) := by
  rw [value, value, zpow_add₀ (by norm_num), zpow_natCast, mul_assoc]

theorem value_shift (digits n : Nat) (exponent : Int) :
    value (digits * 10 ^ n) exponent = value digits (exponent + n) := by
  rw [← value_mul_pow, value, value]
  push_cast
  ring

theorem contains_half_center (nonzero : 0 < k) :
    (interval f k).contains ((interval f k).center / 2 * 2) = true := by
  have even : (interval f k).center / 2 * 2 = (interval f k).center := by
    show 2 * f.units k * 5 ^ f.scale / 2 * 2 = 2 * f.units k * 5 ^ f.scale
    rw [Nat.mul_assoc, Nat.mul_div_cancel_left _ (by decide), Nat.mul_comm]
  rw [even]
  exact contains_center nonzero

/-- The shortest decimal of a rank lies in its interval. -/
theorem shortest_contained (nonzero : 0 < k) :
    ∃ y : Nat, (interval f k).contains (2 * y) = true ∧
      value (shortest f k).digits (shortest f k).exponent * 10 ^ f.scale = y := by
  obtain ⟨contained, -⟩ := Interval.coarsest_spec (contains_half_center nonzero)
    (digitCount ((interval f k).center / 2) - 1)
  unfold shortest
  dsimp only
  generalize (interval f k).coarsest (digitCount ((interval f k).center / 2) - 1) = point at *
  obtain ⟨q, t⟩ := point
  refine ⟨q * 10 ^ t, ?_, ?_⟩
  · rwa [Nat.mul_left_comm]
  · split
    · rename_i trailing
      have whole : q / 10 * 10 ^ 1 = q := Nat.div_mul_cancel (Nat.dvd_of_mod_eq_zero trailing.1)
      rw [value_mul_pow, show (t + 1 - f.scale + f.scale : Int) = t + (1 : Nat) by omega,
        ← value_shift, whole, value_natCast]
    · rw [value_mul_pow, show (t - f.scale + f.scale : Int) = t by omega, value_natCast]

/-- The digits and the exponent of a shortest decimal, as far as the number of digits of what it
stands for bounds them. -/
theorem shortest_bounds (nonzero : 0 < k) {n : Nat} (some : 0 < n)
    (small : (interval f k).center / 2 + 1 < 10 ^ n) :
    digitCount (shortest f k).digits ≤ n ∧ -(f.scale : Int) ≤ (shortest f k).exponent ∧
      (shortest f k).exponent ≤ n := by
  have few : digitCount ((interval f k).center / 2) ≤ n :=
    (Nat.length_toDigits_le_iff (by decide) some).mpr (by omega)
  obtain ⟨-, near, grid⟩ := Interval.coarsest_spec (contains_half_center nonzero)
    (digitCount ((interval f k).center / 2) - 1)
  unfold shortest
  dsimp only
  generalize (interval f k).coarsest (digitCount ((interval f k).center / 2) - 1) = point at *
  obtain ⟨q, t⟩ := point
  dsimp only at near grid
  have fewer : ∀ d ≤ q, digitCount d ≤ n := fun d le =>
    (Nat.length_toDigits_le_iff (by decide) some).mpr (by omega)
  split
  · exact ⟨fewer _ (Nat.div_le_self q 10), by dsimp only; omega, by dsimp only; omega⟩
  · exact ⟨fewer _ (Nat.le_refl q), by dsimp only; omega, by dsimp only; omega⟩

end Decimal

/-! ## Rounding back -/

/-- Whichever digits and exponent a number is written with, if it lies in the interval of a rank, it
is rounded to the rank. -/
theorem Numeral.round_of_contained {f : Format} (wide : 2 ≤ f.precision) {k : Fin (f.top + 1)}
    (nonzero : 0 < k.val) {y : Nat}
    (contained : (Decimal.interval f k).contains (2 * y) = true) {digits : Nat} {exponent : Int}
    (same : Decimal.value digits exponent * 10 ^ f.scale = y) (negative : Bool) :
    (Numeral.scaled negative digits 10 exponent).round = Floating.signed negative k := by
  have ten : 10 ^ f.scale = 2 ^ f.scale * 5 ^ f.scale := Nat.mul_pow 2 5 f.scale
  have finite : k.val ≤ f.top := Nat.le_of_lt_succ k.isLt
  have rounded : ∀ {n d : Nat}, 0 < d → n * 5 ^ f.scale = y * d →
      Floating.ofUnits negative n d = Floating.signed negative k := by
    intro n d positive ratio
    have between := Decimal.between_of_contains contained positive ratio
    exact congrArg (Floating.signed negative)
      (Fin.ext (between.nearest_eq wide nonzero finite positive))
  cases exponent with
  | ofNat e =>
      refine rounded (by decide) ?_
      show digits * 10 ^ e * 2 ^ f.scale * 5 ^ f.scale = y * 1
      rw [Int.ofNat_eq_natCast, Decimal.value_natCast] at same
      have exact : digits * 10 ^ e * 10 ^ f.scale = y := by exact_mod_cast same
      rw [← exact, ten]
      ring
  | negSucc e =>
      refine rounded (Nat.pow_pos (by decide)) ?_
      show digits * 2 ^ f.scale * 5 ^ f.scale = y * 10 ^ (e + 1)
      have cleared : (digits : ℚ) * 10 ^ f.scale = y * 10 ^ (e + 1) := by
        rw [← same, Decimal.value, zpow_negSucc]
        field_simp
      have exact : digits * 10 ^ f.scale = y * 10 ^ (e + 1) := by exact_mod_cast cleared
      rw [← exact, ten]
      ring

end ReversePolish
