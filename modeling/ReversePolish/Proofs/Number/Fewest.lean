import Mathlib.Algebra.Order.Field.Power
import Mathlib.Tactic.Linarith
import ReversePolish.Proofs.Number.Rounding
import ReversePolish.Proofs.Number.Shortest

/-!
The shortest decimal of a number has the fewest digits, and is nearest among those.

The search goes through grids, from the coarsest that has a point below the number to finer ones,
and looks at two points of each. If a grid has any point in the interval around the number, it has
one of these two, because the interval has no gaps, and the one that is taken is the nearest of all
(`Around.exists_point`). So no coarser grid that is looked at has a point in the interval
(`Found.coarser`). A decimal of fewer digits lies on a coarser grid, unless it lies beyond the power
of ten below the number or beyond the one above it; then this power of ten is in the interval as
well, and the search ended at once, with a single digit (`Found.place_cases`). All this is about
decimals in the interval, and a decimal that is rounded to the number is one of these
(`encloses_of_isNearest`).
-/

namespace ReversePolish

theorem digitCount_le_iff {m n : Nat} (some : 0 < n) : digitCount m ≤ n ↔ m < 10 ^ n :=
  Nat.length_toDigits_le_iff (by decide) some

theorem digitCount_pos (m : Nat) : 0 < digitCount m :=
  Nat.length_toDigits_pos

theorem lt_pow_digitCount (m : Nat) : m < 10 ^ digitCount m :=
  (digitCount_le_iff (digitCount_pos m)).mp (Nat.le_refl _)

/-- The number of digits, from the two powers of ten around a number. -/
theorem digitCount_eq {m n : Nat} (least : 10 ^ n ≤ m) (most : m < 10 ^ (n + 1)) :
    digitCount m = n + 1 := by
  refine Nat.le_antisymm ((digitCount_le_iff n.succ_pos).mpr most) (Nat.not_lt.mp fun fewer => ?_)
  have less : m < 10 ^ n :=
    Nat.lt_of_lt_of_le (lt_pow_digitCount m)
      (Nat.pow_le_pow_right (by decide) (Nat.le_of_lt_succ fewer))
  omega

theorem digitCount_bounds {m : Nat} (nonzero : 0 < m) :
    10 ^ (digitCount m - 1) ≤ m ∧ m < 10 ^ (digitCount m - 1 + 1) := by
  have some := digitCount_pos m
  refine ⟨Nat.not_lt.mp fun less => ?_, ?_⟩
  · rcases Nat.eq_zero_or_pos (digitCount m - 1) with none | more
    · rw [none, Nat.pow_zero] at less
      omega
    · have fewer := (digitCount_le_iff more).mpr less
      omega
  · rw [Nat.sub_add_cancel some]
    exact lt_pow_digitCount m

namespace Decimal

namespace Interval

/-- A number of decimal steps, whole or not, lies in an interval. -/
def Encloses (i : Interval) (x : ℚ) : Prop :=
  if i.closed then i.low ≤ 2 * x ∧ 2 * x ≤ i.high else i.low < 2 * x ∧ 2 * x < i.high

theorem contains_double (i : Interval) (y : Nat) : i.contains (2 * y) = true ↔ i.Encloses y := by
  unfold contains Encloses
  split
  · rw [Bool.and_eq_true, decide_eq_true_eq, decide_eq_true_eq]
    exact_mod_cast Iff.rfl
  · rw [Bool.and_eq_true, decide_eq_true_eq, decide_eq_true_eq]
    exact_mod_cast Iff.rfl

theorem contains_point (i : Interval) (t q : Nat) :
    i.contains (q * (2 * 10 ^ t)) = true ↔ i.Encloses (q * 10 ^ t) := by
  rw [Nat.mul_left_comm, contains_double]
  push_cast
  rfl

/-- An interval has no gaps. -/
theorem Encloses.between {i : Interval} {x y z : ℚ} (left : i.Encloses x) (right : i.Encloses z)
    (low : x ≤ y) (high : y ≤ z) : i.Encloses y := by
  unfold Encloses at *
  split
  · rename_i closed
    rw [if_pos closed] at left right
    exact ⟨by linarith [left.1], by linarith [right.2]⟩
  · rename_i isOpen
    rw [if_neg isOpen] at left right
    exact ⟨by linarith [left.1], by linarith [right.2]⟩

/-- An interval lies around a whole number of steps, its center, and above zero. -/
structure Around (i : Interval) (c : Nat) : Prop where
  center : i.center = 2 * c
  inside : i.Encloses c
  low : 0 < i.low

/-! ## The points of a grid -/

/-- The two points of a grid around the center. -/
def Neighbour (i : Interval) (t q : Nat) : Prop :=
  q = i.center / (2 * 10 ^ t) ∨ q = i.center / (2 * 10 ^ t) + 1

theorem pointOn?_neighbour {i : Interval} {t q : Nat} (found : i.pointOn? t = some q) :
    i.Neighbour t q := by
  unfold pointOn? at found
  dsimp only at found
  split at found
  · split at found
    · exact .inl (Option.some.inj found).symm
    · exact .inr (Option.some.inj found).symm
  · exact .inl (Option.some.inj found).symm
  · exact .inr (Option.some.inj found).symm
  · cases found

theorem encloses_point {i : Interval} {t q : Nat} (taken : i.pointOn? t = some q) :
    i.Encloses (q * 10 ^ t) :=
  (i.contains_point t q).mp (pointOn?_spec taken).1

/-- Of the two points around the center, the nearest of those in the interval is taken. -/
theorem pointOn?_nearest {i : Interval} {t q : Nat} (neighbour : i.Neighbour t q)
    (inside : i.contains (q * (2 * 10 ^ t)) = true) :
    ∃ p, i.pointOn? t = some p ∧
      |((p * (2 * 10 ^ t) : Nat) : ℚ) - i.center| ≤
        |((q * (2 * 10 ^ t) : Nat) : ℚ) - i.center| := by
  have grid : 0 < 2 * 10 ^ t := by positivity
  have low : i.center / (2 * 10 ^ t) * (2 * 10 ^ t) ≤ i.center := Nat.div_mul_le_self _ _
  have high : i.center ≤ (i.center / (2 * 10 ^ t) + 1) * (2 * 10 ^ t) := by
    have rest := Nat.mod_lt i.center grid
    have parts := Nat.div_add_mod' i.center (2 * 10 ^ t)
    rw [Nat.add_mul, Nat.one_mul]
    omega
  have down : |((i.center / (2 * 10 ^ t) * (2 * 10 ^ t) : Nat) : ℚ) - i.center| =
      ((i.center - i.center / (2 * 10 ^ t) * (2 * 10 ^ t) : Nat) : ℚ) := by
    rw [abs_sub_comm, Nat.cast_sub low, abs_of_nonneg (sub_nonneg.mpr (Nat.cast_le.mpr low))]
  have up : |(((i.center / (2 * 10 ^ t) + 1) * (2 * 10 ^ t) : Nat) : ℚ) - i.center| =
      (((i.center / (2 * 10 ^ t) + 1) * (2 * 10 ^ t) - i.center : Nat) : ℚ) := by
    rw [Nat.cast_sub high, abs_of_nonneg (sub_nonneg.mpr (Nat.cast_le.mpr high))]
  unfold pointOn?
  simp only [Nat.pow_eq]
  unfold Neighbour at neighbour
  generalize i.center / (2 * 10 ^ t) = below at *
  generalize 2 * 10 ^ t = g at *
  split
  · rename_i belowIn aboveIn
    split
    · rename_i less
      refine ⟨below, rfl, ?_⟩
      rcases neighbour with rfl | rfl
      · exact le_refl _
      · rw [down, up]
        exact Nat.cast_le.mpr (by omega)
    · rename_i more
      refine ⟨below + 1, rfl, ?_⟩
      rcases neighbour with rfl | rfl
      · rw [down, up]
        exact Nat.cast_le.mpr (by omega)
      · exact le_refl _
  · rename_i belowIn aboveOut
    refine ⟨below, rfl, ?_⟩
    rcases neighbour with rfl | rfl
    · exact le_refl _
    · rw [aboveOut] at inside
      cases inside
  · rename_i belowOut aboveIn
    refine ⟨below + 1, rfl, ?_⟩
    rcases neighbour with rfl | rfl
    · rw [belowOut] at inside
      cases inside
    · exact le_refl _
  · rename_i belowOut aboveOut
    rcases neighbour with rfl | rfl
    · rw [belowOut] at inside
      cases inside
    · rw [aboveOut] at inside
      cases inside

/-- The search ended at a point of a grid, and no coarser one that was looked at has a point. -/
structure Found (i : Interval) (top q t : Nat) : Prop where
  point : i.pointOn? t = some q
  le : t ≤ top
  coarser : ∀ s, t < s → s ≤ top → i.pointOn? s = none

namespace Around

variable {i : Interval} {c : Nat} (around : i.Around c)
include around

theorem quotient_eq (t : Nat) : i.center / (2 * 10 ^ t) = c / 10 ^ t := by
  rw [around.center, Nat.mul_div_mul_left _ _ (by decide)]

theorem distance_eq (t q : Nat) :
    |((q * (2 * 10 ^ t) : Nat) : ℚ) - i.center| = 2 * |(q : ℚ) * 10 ^ t - c| := by
  have factor : ((q * (2 * 10 ^ t) : Nat) : ℚ) - i.center = 2 * ((q : ℚ) * 10 ^ t - c) := by
    rw [around.center]
    push_cast
    ring
  rw [factor, abs_mul, abs_of_pos (by norm_num)]

/-- A grid with a point in the interval has a point that is taken, and none is nearer. -/
theorem exists_point {t q : Nat} (inside : i.Encloses (q * 10 ^ t)) :
    ∃ p, i.pointOn? t = some p ∧ |(p : ℚ) * 10 ^ t - c| ≤ |(q : ℚ) * 10 ^ t - c| := by
  -- Between any point of the grid and the center lies one of the two points around the center.
  obtain ⟨x, neighbour, enclosed, nearer⟩ : ∃ x, i.Neighbour t x ∧ i.Encloses (x * 10 ^ t) ∧
      |(x : ℚ) * 10 ^ t - c| ≤ |(q : ℚ) * 10 ^ t - c| := by
    have parts := Nat.div_add_mod' c (10 ^ t)
    have rest := Nat.mod_lt c (show 0 < 10 ^ t by positivity)
    rcases Nat.lt_or_ge (c / 10 ^ t) q with above | below
    · have far : ((c / 10 ^ t + 1 : Nat) : ℚ) * 10 ^ t ≤ q * 10 ^ t := by
        exact_mod_cast Nat.mul_le_mul_right (10 ^ t) above
      have near : (c : ℚ) ≤ ((c / 10 ^ t + 1 : Nat) : ℚ) * 10 ^ t := by
        have : c ≤ (c / 10 ^ t + 1) * 10 ^ t := by
          rw [Nat.add_mul, Nat.one_mul]
          omega
        exact_mod_cast this
      refine ⟨c / 10 ^ t + 1, .inr ?_, around.inside.between inside near far, ?_⟩
      · rw [around.quotient_eq]
      · rw [abs_of_nonneg (by linarith), abs_of_nonneg (by linarith)]
        linarith
    · have far : (q : ℚ) * 10 ^ t ≤ ((c / 10 ^ t : Nat) : ℚ) * 10 ^ t := by
        exact_mod_cast Nat.mul_le_mul_right (10 ^ t) below
      have near : ((c / 10 ^ t : Nat) : ℚ) * 10 ^ t ≤ c := by
        have : c / 10 ^ t * 10 ^ t ≤ c := by omega
        exact_mod_cast this
      refine ⟨c / 10 ^ t, .inl ?_, inside.between around.inside far near, ?_⟩
      · rw [around.quotient_eq]
      · rw [abs_of_nonpos (by linarith), abs_of_nonpos (by linarith)]
        linarith
  rcases pointOn?_nearest neighbour ((i.contains_point t x).mpr enclosed) with
    ⟨p, taken, nearest⟩
  rw [around.distance_eq, around.distance_eq] at nearest
  exact ⟨p, taken, by linarith⟩

theorem not_encloses_zero : ¬i.Encloses 0 := by
  have low : (0 : ℚ) < i.low := Nat.cast_pos.mpr around.low
  unfold Encloses
  split
  · rintro ⟨least, -⟩
    linarith
  · rintro ⟨least, -⟩
    linarith

/-- On the finest grid the center is a point, so the search ends there at the latest. -/
theorem found (top : Nat) : i.Found top (i.coarsest top).1 (i.coarsest top).2 := by
  induction top with
  | zero =>
      rcases around.exists_point (t := 0) (q := c) (by simpa using around.inside) with
        ⟨p, taken, -⟩
      unfold coarsest
      rw [taken]
      exact ⟨taken, Nat.le_refl 0, fun s more none => absurd more (Nat.not_lt.mpr none)⟩
  | succ top ih =>
      unfold coarsest
      cases taken : i.pointOn? (top + 1) with
      | some p =>
          exact ⟨taken, Nat.le_refl _, fun s more most => absurd more (Nat.not_lt.mpr most)⟩
      | none =>
          refine ⟨ih.point, Nat.le_succ_of_le ih.le, fun s more most => ?_⟩
          rcases Nat.lt_or_eq_of_le most with before | rfl
          · exact ih.coarser s more (Nat.le_of_lt_succ before)
          · exact taken

end Around

/-! ## Decimals in the interval -/

namespace Found

variable {i : Interval} {c top q t : Nat} (found : i.Found top q t) (around : i.Around c)
  (least : 10 ^ top ≤ c) (most : c < 10 ^ (top + 1))
include found around

/-- No grid that is coarser has a point in the interval. -/
theorem le_of_encloses {s m : Nat} (inside : i.Encloses (m * 10 ^ s)) (within : s ≤ top) :
    s ≤ t := by
  by_contra coarse
  rcases around.exists_point inside with ⟨p, taken, -⟩
  rw [found.coarser s (Nat.not_le.mp coarse) within] at taken
  cases taken

include least in
/-- If the interval reaches down to the power of ten below its center, the search ended at once. -/
theorem eq_top_of_le {x : ℚ} (inside : i.Encloses x) (low : x ≤ 10 ^ top) :
    t = top ∧ i.Encloses ((1 : Nat) * 10 ^ top) := by
  have below : (10 : ℚ) ^ top ≤ c := by exact_mod_cast least
  have power : i.Encloses ((1 : Nat) * 10 ^ top) :=
    inside.between around.inside (by rwa [Nat.cast_one, one_mul]) (by rwa [Nat.cast_one, one_mul])
  exact ⟨Nat.le_antisymm found.le (found.le_of_encloses around power (Nat.le_refl top)), power⟩

include most in
/-- If the interval reaches up to the power of ten above its center, the search ended at once. -/
theorem eq_top_of_ge {x : ℚ} (inside : i.Encloses x) (high : 10 ^ (top + 1) ≤ x) :
    t = top ∧ i.Encloses ((10 : Nat) * 10 ^ top) := by
  have above : (c : ℚ) ≤ 10 ^ (top + 1) := by exact_mod_cast most.le
  have same : (((10 : Nat) : ℚ) * 10 ^ top) = 10 ^ (top + 1) := by
    rw [pow_succ]
    push_cast
    ring
  have power : i.Encloses ((10 : Nat) * 10 ^ top) := by
    rw [same]
    exact around.inside.between inside above high
  exact ⟨Nat.le_antisymm found.le (found.le_of_encloses around power (Nat.le_refl top)), power⟩

/-- No point of the same grid in the interval is nearer to the center. -/
theorem nearest_on_grid {n : Nat} (inside : i.Encloses (n * 10 ^ t)) :
    |(q : ℚ) * 10 ^ t - c| ≤ |(n : ℚ) * 10 ^ t - c| := by
  rcases around.exists_point inside with ⟨p, taken, nearest⟩
  rw [found.point] at taken
  rwa [Option.some.inj taken]

include least most

/-- A decimal with no more digits than the grid needs lies on the grid, or beyond a power of ten
around the center. -/
theorem place_cases {m : Nat} {s : Int} (inside : i.Encloses (value m s))
    (few : digitCount m ≤ top - t + 1) :
    s = t ∨ t = top ∧ (value m s ≤ 10 ^ top ∨ 10 ^ (top + 1) ≤ value m s) := by
  rcases lt_trichotomy s t with finer | same | coarse
  · have digits : (m : ℚ) ≤ 10 ^ (top - t + 1) := by
      exact_mod_cast ((digitCount_le_iff (Nat.succ_pos _)).mp few).le
    have low : value m s ≤ 10 ^ top := by
      calc value m s = m * 10 ^ s := rfl
        _ ≤ 10 ^ (top - t + 1) * 10 ^ (t - 1 : Int) :=
            mul_le_mul digits (zpow_le_zpow_right₀ (by norm_num) (by omega)) (by positivity)
              (by positivity)
        _ = 10 ^ top := by
            have le := found.le
            rw [← zpow_natCast, ← zpow_natCast, ← zpow_add₀ (by norm_num)]
            congr 1
            omega
    exact .inr ⟨(found.eq_top_of_le around least inside low).1, .inl low⟩
  · exact .inl same
  · obtain ⟨n, rfl⟩ := Int.eq_ofNat_of_zero_le (by omega : 0 ≤ s)
    rw [value, zpow_natCast] at inside
    have beyond : top + 1 ≤ n := by
      by_contra within
      have := found.le_of_encloses around inside (by omega)
      omega
    have nonzero : 1 ≤ m := by
      rcases Nat.eq_zero_or_pos m with rfl | some
      · rw [Nat.cast_zero, zero_mul] at inside
        exact absurd inside around.not_encloses_zero
      · exact some
    have high : 10 ^ (top + 1) ≤ value m n := by
      rw [value_natCast]
      exact_mod_cast (Nat.pow_le_pow_right (by decide) beyond).trans
        (Nat.le_mul_of_pos_left _ nonzero)
    rw [← zpow_natCast] at inside
    exact .inr ⟨(found.eq_top_of_ge around most inside high).1, .inr high⟩

/-- A decimal in the interval has as many digits as the grid needs. -/
theorem le_digitCount {m : Nat} {s : Int} (inside : i.Encloses (value m s)) :
    top - t + 1 ≤ digitCount m := by
  by_contra fewer
  have some := digitCount_pos m
  rcases found.place_cases around least most inside (by omega) with rfl | ⟨same, -⟩
  · -- On the same grid it would lie below the power of ten.
    have low : value m t ≤ 10 ^ top := by
      have digits : m ≤ 10 ^ (top - t) :=
        ((digitCount_le_iff (by omega)).mp (by omega : digitCount m ≤ top - t)).le
      rw [value_natCast]
      have bound := Nat.mul_le_mul_right (10 ^ t) digits
      rw [← Nat.pow_add, Nat.sub_add_cancel found.le] at bound
      exact_mod_cast bound
    have := (found.eq_top_of_le around least inside low).1
    omega
  · omega

/-- Of the decimals in the interval with no more digits than the grid needs none is nearer to the
center than the point. -/
theorem distance_le {m : Nat} {s : Int} (inside : i.Encloses (value m s))
    (few : digitCount m ≤ top - t + 1) :
    |(q : ℚ) * 10 ^ t - c| ≤ |value m s - c| := by
  rcases found.place_cases around least most inside few with rfl | ⟨rfl, low | high⟩
  · rw [value, zpow_natCast] at inside ⊢
    exact found.nearest_on_grid around inside
  · -- The power of ten below the center lies between the decimal and the center.
    have nearer := found.nearest_on_grid around (found.eq_top_of_le around least inside low).2
    have below : (10 : ℚ) ^ t ≤ c := by exact_mod_cast least
    rw [Nat.cast_one, one_mul, abs_of_nonpos (a := (10 : ℚ) ^ t - c) (by linarith)] at nearer
    rw [abs_of_nonpos (a := value m s - c) (by linarith)]
    linarith
  · have nearer := found.nearest_on_grid around (found.eq_top_of_ge around most inside high).2
    have above : (c : ℚ) ≤ 10 ^ (t + 1) := by exact_mod_cast most.le
    have power : ((10 : Nat) : ℚ) * 10 ^ t = 10 ^ (t + 1) := by
      rw [pow_succ, mul_comm, Nat.cast_ofNat]
    rw [power, abs_of_nonneg (a := (10 : ℚ) ^ (t + 1) - c) (by linarith)] at nearer
    rw [abs_of_nonneg (a := value m s - c) (by linarith)]
    linarith

/-- The point has as many digits as the grid needs, or is the next power of ten. -/
theorem point_bounds : 10 ^ (top - t) ≤ q ∧ q ≤ 10 ^ (top - t + 1) := by
  have grid : 0 < 10 ^ t := by positivity
  have low : 10 ^ (top - t) ≤ c / 10 ^ t := by
    rw [Nat.le_div_iff_mul_le grid, ← Nat.pow_add, Nat.sub_add_cancel found.le]
    exact least
  have high : c / 10 ^ t < 10 ^ (top - t + 1) := by
    have le := found.le
    rw [Nat.div_lt_iff_lt_mul grid, ← Nat.pow_add, show top - t + 1 + t = top + 1 by omega]
    exact most
  have neighbour := pointOn?_neighbour found.point
  rw [Neighbour, around.quotient_eq] at neighbour
  omega

/-- The point ends in a zero only if it is the power of ten above the center. -/
theorem eq_ten_of_mod_eq_zero (trailing : q % 10 = 0) : q = 10 ∧ t = top := by
  have whole : q / 10 * 10 = q := Nat.div_mul_cancel (Nat.dvd_of_mod_eq_zero trailing)
  have last : t = top := by
    have le := found.le
    by_contra other
    have coarser : i.Encloses ((q / 10 : Nat) * 10 ^ (t + 1)) := by
      have same : ((q / 10 : Nat) : ℚ) * 10 ^ (t + 1) = q * 10 ^ t := by
        rw [pow_succ', ← mul_assoc]
        exact_mod_cast congrArg (fun n : Nat => ((n * 10 ^ t : Nat) : ℚ)) whole
      rw [same]
      exact encloses_point found.point
    have := found.le_of_encloses around coarser (by omega)
    omega
  have bounds := found.point_bounds around least most
  rw [last, Nat.sub_self, Nat.pow_zero, Nat.zero_add, Nat.pow_one] at bounds
  exact ⟨by omega, last⟩

end Found

end Interval

/-! ## The shortest decimal -/

variable {f : Format} {k : Nat}

theorem magnitude_mul_pow (f : Format) (k : Nat) :
    f.magnitude k * 10 ^ f.scale = ((f.units k * 5 ^ f.scale : Nat) : ℚ) := by
  have one : (f.one : ℚ) = 2 ^ f.scale := by
    show ((2 ^ f.scale : Nat) : ℚ) = _
    push_cast
    rfl
  have ten : (10 : ℚ) ^ f.scale = 2 ^ f.scale * 5 ^ f.scale := by
    rw [← mul_pow]
    norm_num
  rw [Format.magnitude, one, ten]
  push_cast
  field_simp

theorem five_pos : 0 < 5 ^ f.scale :=
  Nat.pow_pos (by decide)

theorem units_pos (nonzero : 0 < k) : 0 < f.units k := by
  have first := f.units_strictMono nonzero
  rwa [f.units_zero] at first

theorem interval_around (nonzero : 0 < k) :
    (interval f k).Around (f.units k * 5 ^ f.scale) := by
  have center : (interval f k).center = 2 * (f.units k * 5 ^ f.scale) :=
    Nat.mul_assoc 2 (f.units k) (5 ^ f.scale)
  refine ⟨center, ?_, ?_⟩
  · rw [← Interval.contains_double, ← center]
    exact contains_center nonzero
  · have some := units_pos (f := f) nonzero
    exact Nat.mul_pos (by omega) five_pos

/-- The shortest decimal of a rank is a point that the search found. It does not end in a zero, and
has as many digits as the grid of the point needs. -/
theorem shortest_found (nonzero : 0 < k) :
    ∃ top q t, (interval f k).Found top q t ∧
      (10 ^ top ≤ f.units k * 5 ^ f.scale ∧ f.units k * 5 ^ f.scale < 10 ^ (top + 1)) ∧
      value (shortest f k).digits (shortest f k).exponent * 10 ^ f.scale = (q : ℚ) * 10 ^ t ∧
      (shortest f k).digits % 10 ≠ 0 ∧ digitCount (shortest f k).digits = top - t + 1 := by
  have around := interval_around (f := f) nonzero
  have half : (interval f k).center / 2 = f.units k * 5 ^ f.scale := by
    rw [around.center, Nat.mul_div_cancel_left _ (by decide)]
  obtain ⟨least, most⟩ := digitCount_bounds (Nat.mul_pos (units_pos nonzero) five_pos)
  have found := around.found (digitCount (f.units k * 5 ^ f.scale) - 1)
  refine ⟨_, _, _, found, ⟨least, most⟩, ?_⟩
  obtain ⟨low, high⟩ := found.point_bounds around least most
  have trailing := found.eq_ten_of_mod_eq_zero around least most
  unfold shortest
  dsimp only
  rw [half]
  generalize (interval f k).coarsest (digitCount (f.units k * 5 ^ f.scale) - 1) = point at *
  generalize digitCount (f.units k * 5 ^ f.scale) - 1 = top at *
  obtain ⟨q, t⟩ := point
  dsimp only at *
  split
  · rename_i ends
    obtain ⟨rfl, rfl⟩ := trailing ends.1
    refine ⟨?_, show 1 % 10 ≠ 0 by decide, ?_⟩
    · rw [value_mul_pow, show (t + 1 - f.scale + f.scale : Int) = (t + 1 : Nat) by omega,
        value_natCast, pow_succ]
      push_cast
      ring
    · rw [Nat.sub_self]
      exact digitCount_eq (m := 1) (Nat.le_refl 1) (by decide)
  · rename_i ends
    have positive : 0 < 10 ^ (top - t) := by positivity
    have last : q % 10 ≠ 0 := fun zero => ends ⟨zero, by omega⟩
    refine ⟨?_, last, digitCount_eq low (Nat.lt_of_le_of_ne high ?_)⟩
    · rw [value_mul_pow, show (t - f.scale + f.scale : Int) = t by omega, value, zpow_natCast]
    · rintro rfl
      exact last (by rw [Nat.pow_succ, Nat.mul_mod_left])

/-! ## Decimals that are rounded to a rank -/

/-- A number is nearer to the lower of two others if it lies below their middle. -/
theorem nearer_lower_iff {a b x : ℚ} (less : a < b) : |x - a| < |x - b| ↔ 2 * x < a + b := by
  rw [← sq_lt_sq]
  constructor
  · intro nearer
    nlinarith
  · intro below
    nlinarith

/-- A number is nearer to the higher of two others if it lies above their middle. -/
theorem nearer_higher_iff {a b x : ℚ} (less : a < b) : |x - b| < |x - a| ↔ a + b < 2 * x := by
  rw [← sq_lt_sq]
  constructor
  · intro nearer
    nlinarith
  · intro above
    nlinarith

section Nearest

variable {x : ℚ} (nearest : f.IsNearest x k) (wide : 1 ≤ f.precision)
include nearest wide

/-- No other rank is nearer to a number than the one that is nearest, nor as near if this one is
odd. -/
theorem distance_le_of_isNearest {j : Nat} (other : j ≠ k) :
    |x - f.magnitude k| ≤ |x - f.magnitude j| ∧
      (k % 2 = 1 → |x - f.magnitude k| < |x - f.magnitude j|) := by
  have short : f.steps j < 2 ^ f.precision := by
    rw [← Format.two_mul_binade wide]
    exact (f.rank_eq j).2.1
  have rank : f.multiple (f.steps j) (f.doublings j) = f.magnitude j := by
    rw [Format.multiple, Format.magnitude, f.units_eq]
    push_cast
    rfl
  have apart : f.magnitude j ≠ f.magnitude k := by
    intro same
    have units : (f.units j : ℚ) = f.units k := (div_left_inj' (ne_of_gt f.one_pos)).mp same
    exact other (f.units_strictMono.injective (Nat.cast_injective units))
  have closest := nearest.closest short (f.doublings j)
  rw [rank] at closest
  refine ⟨closest, fun odd => lt_of_le_of_ne closest fun tie => ?_⟩
  have even := nearest.even short (f.doublings j)
  rw [rank] at even
  have := even apart tie.symm
  omega

/-- What is rounded to a rank lies in its interval. -/
theorem encloses_of_isNearest (nonzero : 0 < k) : (interval f k).Encloses (x * 10 ^ f.scale) := by
  have scale : (0 : ℚ) < 10 ^ f.scale := by positivity
  have below : f.magnitude (k - 1) < f.magnitude k :=
    div_lt_div_of_pos_right (Nat.cast_lt.mpr (f.units_strictMono (by omega))) f.one_pos
  have above : f.magnitude k < f.magnitude (k + 1) :=
    div_lt_div_of_pos_right (Nat.cast_lt.mpr (f.units_lt_succ k)) f.one_pos
  obtain ⟨left, leftOdd⟩ := distance_le_of_isNearest nearest wide (j := k - 1) (by omega)
  obtain ⟨right, rightOdd⟩ := distance_le_of_isNearest nearest wide (j := k + 1) (by omega)
  have low : ((interval f k).low : ℚ) =
      (f.magnitude (k - 1) + f.magnitude k) * 10 ^ f.scale := by
    rw [add_mul, magnitude_mul_pow, magnitude_mul_pow, ← Nat.cast_add, ← Nat.add_mul]
    rfl
  have high : ((interval f k).high : ℚ) =
      (f.magnitude k + f.magnitude (k + 1)) * 10 ^ f.scale := by
    rw [add_mul, magnitude_mul_pow, magnitude_mul_pow, ← Nat.cast_add, ← Nat.add_mul]
    rfl
  have doubled : 2 * (x * 10 ^ f.scale) = 2 * x * 10 ^ f.scale := by ring
  unfold Interval.Encloses
  rw [low, high, doubled]
  split
  · have least : f.magnitude (k - 1) + f.magnitude k ≤ 2 * x :=
      not_lt.mp (mt (nearer_lower_iff below).mpr (not_lt.mpr left))
    have most : 2 * x ≤ f.magnitude k + f.magnitude (k + 1) :=
      not_lt.mp (mt (nearer_higher_iff above).mpr (not_lt.mpr right))
    exact ⟨mul_le_mul_of_nonneg_right least scale.le, mul_le_mul_of_nonneg_right most scale.le⟩
  · rename_i isOpen
    have odd : k % 2 = 1 :=
      Nat.mod_two_ne_zero.mp fun even => isOpen (by rw [interval, even]; rfl)
    have least := (nearer_higher_iff below).mp (leftOdd odd)
    have most := (nearer_lower_iff above).mp (rightOdd odd)
    exact ⟨mul_lt_mul_of_pos_right least scale, mul_lt_mul_of_pos_right most scale⟩

end Nearest

/-- Of the decimals that are rounded to a rank none has fewer digits than the shortest one, and none
with as few is nearer. -/
theorem shortest_fewest (wide : 1 ≤ f.precision) (nonzero : 0 < k) {m : Nat} {s : Int}
    (nearest : f.IsNearest (value m s) k) :
    digitCount (shortest f k).digits ≤ digitCount m ∧
      (digitCount m = digitCount (shortest f k).digits →
        |value (shortest f k).digits (shortest f k).exponent - f.magnitude k| ≤
          |value m s - f.magnitude k|) := by
  obtain ⟨top, q, t, found, ⟨least, most⟩, point, -, count⟩ := shortest_found (f := f) nonzero
  have around := interval_around (f := f) nonzero
  have inside := encloses_of_isNearest nearest wide nonzero
  rw [value_mul_pow] at inside
  rw [count]
  refine ⟨found.le_digitCount around least most inside, fun same => ?_⟩
  have nearer := found.distance_le around least most inside same.le
  -- Both distances are counted in decimal steps.
  have scale : (0 : ℚ) < 10 ^ f.scale := by positivity
  rw [← point, ← value_mul_pow, ← magnitude_mul_pow, ← sub_mul, ← sub_mul, abs_mul, abs_mul,
    abs_of_pos scale] at nearer
  exact le_of_mul_le_mul_right nearer scale

end Decimal

end ReversePolish
