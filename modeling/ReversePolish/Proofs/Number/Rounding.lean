import Mathlib.Algebra.Order.Field.Basic
import Mathlib.Data.Rat.Lemmas
import Mathlib.Tactic.FieldSimp
import Mathlib.Tactic.Linarith
import ReversePolish.Proofs.Number.Whole

/-!
Rounding is to the nearest number, and to the even one of two.

What is rounded lies between the middles around the magnitude of one rank (`exists_between`), and
this is the rank that it is rounded to, or that of infinity if this is lower
(`Between.nearest_eq_min`). A rank with what is rounded between its middles is nearest to it, not
only among the ranks: a number with as many significant bits as the format has, and of whatever
size, is the magnitude of a rank as long as ranks are counted beyond that of infinity
(`exists_rank`). So `IsNearest` compares with all these numbers, and does not mention ranks except
for what is even.
-/

namespace ReversePolish.Format

variable {f : Format}

theorem units_strictMono (f : Format) : StrictMono f.units :=
  strictMono_nat_of_lt_succ f.units_lt_succ

theorem units_zero (f : Format) : f.units 0 = 0 := by
  rw [units, Nat.zero_sub, Nat.zero_mul]

/-! ## Ranks -/

/-- A whole number of as many binary digits as the format has, doubled any number of times, is the
magnitude of a rank. -/
theorem exists_rank (wide : 1 ≤ f.precision) {m : Nat} (short : m < 2 ^ f.precision) (e : Nat) :
    ∃ k, f.units k = m * 2 ^ e := by
  have width : 2 * f.binade = 2 ^ f.precision := two_mul_binade wide
  induction e generalizing m with
  | zero =>
      have doublings : f.doublings m = 0 :=
        doublings_eq (e := 0) (m := m) (by omega) (by omega) (.inl rfl)
      refine ⟨m, ?_⟩
      rw [units_eq, steps, doublings, Nat.zero_mul, Nat.sub_zero]
  | succ e ih =>
      rcases Nat.lt_or_ge m f.binade with few | many
      · -- There is room for one more digit, so a doubling can be done before.
        obtain ⟨k, rank⟩ := ih (m := 2 * m) (by omega)
        refine ⟨k, ?_⟩
        rw [rank, Nat.pow_succ]
        ring
      · have doublings : f.doublings ((e + 1) * f.binade + m) = e + 1 :=
          doublings_eq rfl (by omega) (.inr many)
        refine ⟨(e + 1) * f.binade + m, ?_⟩
        rw [units_eq, steps, doublings, Nat.add_sub_cancel_left]

/-- Every quotient lies between the middles around some rank. -/
theorem exists_between (f : Format) (n : Nat) {d : Nat} (positive : 0 < d) :
    ∃ k, f.Between k n d := by
  have bounded : ∃ k, n < f.units (k + 1) * d := by
    have large : n + 1 ≤ f.units (n + 1) := f.units_strictMono.le_apply
    have := Nat.le_mul_of_pos_right (f.units (n + 1)) positive
    exact ⟨n, by omega⟩
  -- The rank of the greatest magnitude that is not above the quotient.
  obtain ⟨k, above, least⟩ : ∃ k, n < f.units (k + 1) * d ∧ f.units k * d ≤ n := by
    classical
    refine ⟨Nat.find bounded, Nat.find_spec bounded, ?_⟩
    rcases found : Nat.find bounded with _ | k
    · rw [f.units_zero, Nat.zero_mul]
      exact Nat.zero_le n
    · exact Nat.not_lt.mp (Nat.find_min bounded (found ▸ Nat.lt_succ_self k))
  have before : f.units (k - 1) * d ≤ f.units k * d :=
    Nat.mul_le_mul_right d (f.units_strictMono.monotone (Nat.sub_le k 1))
  have behind : f.units (k + 1) * d < f.units (k + 1 + 1) * d :=
    Nat.mul_lt_mul_of_pos_right (f.units_lt_succ (k + 1)) positive
  have lower (odd : k % 2 = 1) : f.units (k - 1) * d < f.units k * d :=
    Nat.mul_lt_mul_of_pos_right (f.units_strictMono (by omega)) positive
  have below (high : 2 * n ≤ (f.units k + f.units (k + 1)) * d)
      (inside : k % 2 = 1 → 2 * n < (f.units k + f.units (k + 1)) * d) : f.Between k n d := by
    refine ⟨?_, high, fun odd => ⟨?_, inside odd⟩⟩
    · rw [Nat.add_mul]
      omega
    · have := lower odd
      rw [Nat.add_mul]
      omega
  have upper (low : (f.units k + f.units (k + 1)) * d ≤ 2 * n)
      (inside : (k + 1) % 2 = 1 → (f.units k + f.units (k + 1)) * d < 2 * n) :
      f.Between (k + 1) n d := by
    refine ⟨low, ?_, fun odd => ⟨inside odd, ?_⟩⟩
    · rw [Nat.add_mul]
      omega
    · rw [Nat.add_mul]
      omega
  rcases Nat.lt_trichotomy (2 * n) ((f.units k + f.units (k + 1)) * d) with less | middle | more
  · exact ⟨k, below (Nat.le_of_lt less) (fun _ => less)⟩
  · rcases Nat.mod_two_eq_zero_or_one k with even | odd
    · exact ⟨k, below (Nat.le_of_eq middle) (fun odd => by omega)⟩
    · exact ⟨k + 1, upper (Nat.le_of_eq middle.symm) (fun even => by omega)⟩
  · exact ⟨k + 1, upper (Nat.le_of_lt more) (fun _ => more)⟩

namespace Between

variable {k n d : Nat} (between : f.Between k n d) (wide : 2 ≤ f.precision) (positive : 0 < d)
include between wide positive

/-- The rank that is found, were there no greatest one. -/
theorem rounded_eq :
    (bitLength (n / d) - f.precision) * f.binade +
      divideToEven n (d * Nat.pow 2 (bitLength (n / d) - f.precision)) = k := by
  rcases Nat.eq_zero_or_pos k with rfl | nonzero
  · have unit : f.units 1 = 1 := by
      have first : f.doublings 0 = 0 := by
        rw [doublings, Nat.zero_div]
      rw [f.units_succ 0, f.units_zero, first, Nat.zero_add, Nat.pow_zero]
    have high := between.high
    rw [f.units_zero, unit, Nat.zero_add, Nat.one_mul] at high
    have nothing : n / d = 0 := Nat.div_eq_of_lt (by omega)
    have none : bitLength (n / d) - f.precision = 0 := by
      rw [nothing]
      exact Nat.zero_sub _
    rw [none, Nat.zero_mul, Nat.zero_add]
    show divideToEven n (d * 1) = 0
    rw [Nat.mul_one]
    exact divideToEven_eq positive (by omega) (by omega) (by omega)
  · -- With infinity right behind it, the rank is found, and so it is before infinity is looked at.
    let g : Format := { f with top := k + 1 }
    have same : g.Between k n d := ⟨between.low, between.high, between.inside⟩
    have found : g.nearest n d = k := same.nearest_eq wide nonzero (Nat.le_succ k) positive
    have least : min ((bitLength (n / d) - f.precision) * f.binade +
        divideToEven n (d * Nat.pow 2 (bitLength (n / d) - f.precision))) (k + 1) = k := found
    omega

/-- What lies between the middles around the magnitude of a rank is rounded to the rank, or to
infinity if that comes first. -/
theorem nearest_eq_min : f.nearest n d = min k f.top := by
  unfold nearest
  dsimp only
  rw [between.rounded_eq wide positive]

end Between

/-! ## Distances -/

/-- The magnitude of a rank. -/
def magnitude (f : Format) (k : Nat) : ℚ :=
  f.units k / f.one

/-- A number of `m` steps that are `2 ^ e` units long. -/
def multiple (f : Format) (m e : Nat) : ℚ :=
  m * 2 ^ e / f.one

/-- The magnitude of a rank is nearest to a number, of all numbers with as many significant bits;
where another one is as near, the rank is even. -/
structure IsNearest (f : Format) (x : ℚ) (k : Nat) : Prop where
  closest : ∀ {m : Nat}, m < 2 ^ f.precision → ∀ e : Nat,
    |x - f.magnitude k| ≤ |x - f.multiple m e|
  even : ∀ {m : Nat}, m < 2 ^ f.precision → ∀ e : Nat, f.multiple m e ≠ f.magnitude k →
    |x - f.multiple m e| = |x - f.magnitude k| → k % 2 = 0

theorem one_pos (f : Format) : (0 : ℚ) < f.one :=
  Nat.cast_pos.mpr (Nat.two_pow_pos _)

/-- The distance from `n / d` units to a rank, over a common denominator. -/
theorem distance_eq (f : Format) (n : Nat) {d : Nat} (positive : 0 < d) (j : Nat) :
    |(n : ℚ) / (d * f.one) - f.magnitude j| =
      |(n : ℚ) - f.units j * d| / (d * f.one) := by
  have unit := f.one_pos
  have denominator : (0 : ℚ) < d := Nat.cast_pos.mpr positive
  have difference : (n : ℚ) / (d * f.one) - f.magnitude j =
      ((n : ℚ) - f.units j * d) / (d * f.one) := by
    rw [magnitude]
    field_simp
  rw [difference, abs_div, abs_of_pos (mul_pos denominator unit)]

namespace Between

variable {k n d : Nat} (between : f.Between k n d) (positive : 0 < d)
include between positive

/-- A lower rank is not nearer, and nearer than an odd rank is none. -/
theorem distance_le_of_lt {j : Nat} (lower : j < k) :
    |(n : ℚ) - f.units k * d| ≤ |(n : ℚ) - f.units j * d| ∧
      (k % 2 = 1 → |(n : ℚ) - f.units k * d| < |(n : ℚ) - f.units j * d|) := by
  have least : f.units j * d ≤ f.units (k - 1) * d :=
    Nat.mul_le_mul_right d (f.units_strictMono.monotone (by omega))
  have less : f.units j * d < f.units k * d :=
    Nat.mul_lt_mul_of_pos_right (f.units_strictMono lower) positive
  have low := between.low
  have inside := between.inside
  rw [Nat.add_mul] at low inside
  have middle : f.units j * d + f.units k * d ≤ 2 * n := by omega
  have strict : k % 2 = 1 → f.units j * d + f.units k * d < 2 * n := by
    intro odd
    have := (inside odd).1
    omega
  have less' : (f.units j : ℚ) * d < f.units k * d := by exact_mod_cast less
  have middle' : (f.units j : ℚ) * d + f.units k * d ≤ 2 * n := by exact_mod_cast middle
  have far : (n : ℚ) - f.units j * d ≤ |(n : ℚ) - f.units j * d| := le_abs_self _
  constructor
  · rw [abs_le]
    constructor <;> linarith
  · intro odd
    have strict' : (f.units j : ℚ) * d + f.units k * d < 2 * n := by exact_mod_cast strict odd
    rw [abs_lt]
    constructor <;> linarith

/-- A higher rank is not nearer, and nearer than an odd rank is none. -/
theorem distance_le_of_gt {j : Nat} (higher : k < j) :
    |(n : ℚ) - f.units k * d| ≤ |(n : ℚ) - f.units j * d| ∧
      (k % 2 = 1 → |(n : ℚ) - f.units k * d| < |(n : ℚ) - f.units j * d|) := by
  have most : f.units (k + 1) * d ≤ f.units j * d :=
    Nat.mul_le_mul_right d (f.units_strictMono.monotone higher)
  have more : f.units k * d < f.units j * d :=
    Nat.mul_lt_mul_of_pos_right (f.units_strictMono higher) positive
  have high := between.high
  have inside := between.inside
  rw [Nat.add_mul] at high
  simp only [Nat.add_mul] at inside
  have middle : 2 * n ≤ f.units k * d + f.units j * d := by omega
  have strict : k % 2 = 1 → 2 * n < f.units k * d + f.units j * d := by
    intro odd
    have := (inside odd).2
    omega
  have more' : (f.units k : ℚ) * d < f.units j * d := by exact_mod_cast more
  have middle' : 2 * (n : ℚ) ≤ f.units k * d + f.units j * d := by exact_mod_cast middle
  have far : -((n : ℚ) - f.units j * d) ≤ |(n : ℚ) - f.units j * d| := neg_le_abs _
  constructor
  · rw [abs_le]
    constructor <;> linarith
  · intro odd
    have strict' : 2 * (n : ℚ) < f.units k * d + f.units j * d := by exact_mod_cast strict odd
    rw [abs_lt]
    constructor <;> linarith

theorem distance_le {j : Nat} (other : j ≠ k) :
    |(n : ℚ) - f.units k * d| ≤ |(n : ℚ) - f.units j * d| ∧
      (k % 2 = 1 → |(n : ℚ) - f.units k * d| < |(n : ℚ) - f.units j * d|) := by
  rcases Nat.lt_or_gt_of_ne other with lower | higher
  · exact between.distance_le_of_lt positive lower
  · exact between.distance_le_of_gt positive higher

/-- A rank with a number between its middles is nearest to the number. -/
theorem isNearest (wide : 2 ≤ f.precision) : f.IsNearest ((n : ℚ) / (d * f.one)) k := by
  have scale : (0 : ℚ) < d * f.one := mul_pos (Nat.cast_pos.mpr positive) f.one_pos
  have ranked {m : Nat} (short : m < 2 ^ f.precision) (e : Nat) :
      ∃ j, f.multiple m e = f.magnitude j := by
    obtain ⟨j, rank⟩ := exists_rank (by omega) short e
    refine ⟨j, ?_⟩
    rw [magnitude, rank, multiple]
    push_cast
    rfl
  constructor
  · intro m short e
    obtain ⟨j, rank⟩ := ranked short e
    rw [rank, distance_eq f n positive, distance_eq f n positive]
    refine div_le_div_of_nonneg_right ?_ (le_of_lt scale)
    by_cases same : j = k
    · rw [same]
    · exact (between.distance_le positive same).1
  · intro m short e apart tie
    obtain ⟨j, rank⟩ := ranked short e
    rw [rank] at apart tie
    have other : j ≠ k := fun same => apart (congrArg f.magnitude same)
    rw [distance_eq f n positive, distance_eq f n positive,
      div_left_inj' (ne_of_gt scale)] at tie
    by_contra odd
    have nearer := (between.distance_le positive other).2 (by omega)
    exact absurd tie (ne_of_gt nearer)

end Between

/-! ## Rounding -/

/-- A quotient is rounded to infinity from the middle between the last two ranks on. -/
theorem nearest_eq_top_iff (wide : 2 ≤ f.precision) (large : 0 < f.top) (even : f.top % 2 = 0)
    (n : Nat) {d : Nat} (positive : 0 < d) :
    f.nearest n d = f.top ↔ (f.units (f.top - 1) + f.units f.top) * d ≤ 2 * n := by
  obtain ⟨k, between⟩ := f.exists_between n positive
  rw [between.nearest_eq_min wide positive]
  constructor
  · intro top
    have reached : f.top ≤ k := by omega
    have last := f.units_strictMono.monotone reached
    have before := f.units_strictMono.monotone (Nat.sub_le_sub_right reached 1)
    calc (f.units (f.top - 1) + f.units f.top) * d
        ≤ (f.units (k - 1) + f.units k) * d := Nat.mul_le_mul_right d (Nat.add_le_add before last)
      _ ≤ 2 * n := between.low
  · intro above
    by_contra other
    have lower : k + 1 ≤ f.top := by omega
    rcases Nat.lt_or_eq_of_le lower with inner | next
    · have last := f.units_strictMono (show k + 1 < f.top from inner)
      have before := f.units_strictMono.monotone (show k ≤ f.top - 1 by omega)
      have less : (f.units k + f.units (k + 1)) * d < (f.units (f.top - 1) + f.units f.top) * d :=
        Nat.mul_lt_mul_of_pos_right (Nat.add_lt_add_of_le_of_lt before last) positive
      have := between.high
      omega
    · -- The middle itself goes to infinity, whose rank is even.
      have inside := (between.inside (by omega)).2
      rw [← next, Nat.add_sub_cancel] at above
      omega

/-- A quotient that is not rounded to infinity is rounded to the nearest rank. -/
theorem isNearest_nearest (wide : 2 ≤ f.precision) (n : Nat) {d : Nat} (positive : 0 < d)
    (finite : f.nearest n d ≠ f.top) :
    f.IsNearest ((n : ℚ) / (d * f.one)) (f.nearest n d) := by
  obtain ⟨k, between⟩ := f.exists_between n positive
  have rounded := between.nearest_eq_min wide positive
  have same : f.nearest n d = k := by omega
  rw [same]
  exact between.isNearest positive wide

end ReversePolish.Format
