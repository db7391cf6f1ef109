import Mathlib.Data.Int.ModEq
import ReversePolish.Proofs.Evaluation.Guard
import ReversePolish.Proofs.Number.Exact
import ReversePolish.Proofs.Operator.Library

/-!
The operator `mod`.

It takes the integer parts of two values in double precision, divides them, and rounds the remainder
to a value. Nothing is lost on the way: integer parts and remainders of short numbers are short
(`Short.mod`), however large the operands are, so each of these results is a number of its format
as it stands (`BinaryFunction.apply_mod`). What is left on the stack is the remainder of the
integers.

The sign is carried apart from the magnitude, so a remainder of zero has one, too.
-/

namespace ReversePolish

/-- The remainder `i` of a division that rounds toward zero: smaller than the divisor, congruent to
the dividend, and on the side of zero where the dividend is. -/
structure IsRemainder (a b i : Int) : Prop where
  small : i.natAbs < b.natAbs
  congruent : i ≡ a [ZMOD b]
  side : i = 0 ∨ i.sign = a.sign

theorem isRemainder_tmod (a : Int) {b : Int} (nonzero : b ≠ 0) :
    IsRemainder a b (a.tmod b) where
  small := by
    rw [Int.natAbs_tmod]
    exact Nat.mod_lt _ (Int.natAbs_pos.mpr nonzero)
  congruent := by
    have parts := Int.tmod_add_mul_tdiv a b
    apply Int.modEq_iff_dvd.mpr
    exact ⟨a.tdiv b, by omega⟩
  side := by
    rw [Int.sign_tmod]
    split
    · exact .inl (Int.tmod_eq_zero_of_dvd ‹_›)
    · exact .inr rfl

namespace Floating

variable {f : Format} {a : Floating f}

/-- A finite value that is an integer, to the last digit. The sign shows for zero as well. -/
structure IsInteger (a : Floating f) (negative : Bool) (i : Int) : Prop where
  finite : a.isFinite = true
  sign : a.isNegative = negative
  exact : a.signedUnits = i * f.one

theorem tmod_whole (finite : a.isFinite = true) (d : Int) :
    a.whole.tmod d =
      if a.isNegative then -((a.units / f.one % d.natAbs : Nat) : Int)
      else (a.units / f.one % d.natAbs : Nat) := by
  rcases exists_rank_of_isFinite finite with ⟨negative, k, rfl, -⟩
  have magnitude (m : Nat) : (m : Int).tmod d = (m % d.natAbs : Nat) := by
    have nonneg := Int.tmod_nonneg d (Int.natCast_nonneg m)
    have natAbs := Int.natAbs_tmod m d
    rw [Int.natAbs_natCast] at natAbs
    omega
  rw [whole_signed]
  show _ = if negative then -((f.units k / f.one % d.natAbs : Nat) : Int) else _
  cases negative with
  | false => exact magnitude _
  | true => exact (Int.neg_tmod _ _).trans (congrArg Neg.neg (magnitude _))

theorem IsExactly.isInteger {negative : Bool} {m : Nat}
    (exact : a.IsExactly negative (m * f.one)) :
    a.IsInteger negative (if negative then -(m : Int) else m) := by
  refine ⟨exact.finite, exact.sign, ?_⟩
  rw [signedUnits, exact.sign, exact.units]
  cases negative <;> simp

end Floating

namespace BinaryFunction

open Floating

/-- The integer part of a value in double precision. -/
theorem isExactly_trunc_convert {a : Value} (finite : a.isFinite = true) :
    (a.convert : Double).trunc.IsExactly a.isNegative
      (a.units / binary32.one * binary64.one) := by
  have wide := (isExactly_self finite).widen (by decide) Format.binary32_within_binary64
  have whole := wide.trunc (by decide)
  have scaled : a.units * 2 ^ (binary64.scale - binary32.scale) / binary64.one =
      a.units / binary32.one := by
    rw [Format.one_eq_shift Format.binary32_within_binary64, Nat.mul_comm a.units]
    exact Nat.mul_div_mul_left _ _ (Nat.two_pow_pos _)
  rwa [scaled] at whole

/-- The remainder of the integer parts of two finite values is a value as it stands. It is refused
if the integer part of the divisor is zero. -/
theorem apply_mod {a b : Value} (finite : a.isFinite = true) (finite' : b.isFinite = true)
    (el : Elementary) :
    (b.whole = 0 → BinaryFunction.mod.apply el a b = .error .divideByZero) ∧
      (b.whole ≠ 0 → ∃ r, BinaryFunction.mod.apply el a b = .ok r ∧
        r.IsInteger a.isNegative (a.whole.tmod b.whole)) := by
  have dividend := isExactly_trunc_convert finite
  have divisor := isExactly_trunc_convert finite'
  have magnitude : b.whole.natAbs = b.units / binary32.one := (isExactly_self finite').natAbs_whole
  have one (f : Format) : f.one ≠ 0 := Nat.ne_of_gt (Nat.two_pow_pos f.scale)
  have isZero : (b.convert : Double).trunc.isZero = true ↔ b.whole = 0 := by
    rw [divisor.isZero_iff, ← magnitude, Nat.mul_eq_zero, Int.natAbs_eq_zero]
    exact or_iff_left (one binary64)
  constructor
  · intro zero
    simp only [apply, isZero.mpr zero, if_true]
  · intro nonzero
    have positive : b.units / binary32.one * binary64.one ≠ 0 := by
      rw [← magnitude]
      exact Nat.mul_ne_zero (Int.natAbs_ne_zero.mpr nonzero) (one binary64)
    have remainder := dividend.rem (by decide) divisor positive
    rw [Nat.mul_mod_mul_right, ← magnitude] at remainder
    -- The remainder is as short as single precision asks for.
    have short : Short binary32.precision (a.units / binary32.one % b.whole.natAbs) := by
      rw [magnitude]
      exact (((isExactly_self finite).short (by decide)).div_two_pow _).mod
        (((isExactly_self finite').short (by decide)).div_two_pow _)
    have below : a.units / binary32.one % b.whole.natAbs * binary32.one <
        binary32.units binary32.top := by
      have less := Nat.mul_le_mul_right binary32.one
        (Nat.mod_le (a.units / binary32.one) b.whole.natAbs)
      have parts := Nat.div_mul_le_self a.units binary32.one
      have bound := (isExactly_self finite).units_lt
      omega
    have narrow := remainder.convert (g := binary32) (by decide) (Nat.mul_right_comm _ _ _)
      (short.shift _) below
    refine ⟨((a.convert : Double).trunc.rem (b.convert : Double).trunc).convert, ?_, ?_⟩
    · simp only [apply, if_neg (fun zero => nonzero (isZero.mp zero))]
    · rw [tmod_whole finite]
      exact narrow.isInteger

end BinaryFunction

/-- What the token `mod` does on a context with two finite values on top of the stack, of whatever
size. Where the integer part of the upper one is not zero, it leaves the remainder of the integer
parts in place of the two: a value that is this integer without rounding, with the sign of the lower
one even if it is zero. Otherwise it fails, and both are gone. -/
theorem handleToken_mod {w : World} {id : Nat} {c : Context} (present : w.get? id = some c)
    (listed : c.operators.lookup? "mod" = some (.builtin (.function (.binary .mod))))
    {a b : Value} {rest : List Value} (operands : c.stack = b :: a :: rest)
    (finite : a.isFinite = true) (finite' : b.isFinite = true) (evaluate : Evaluator)
    (strict : Bool) :
    (b.whole = 0 →
      handleToken evaluate id strict "mod" w =
        (w.put id { c with stack := rest }, .fail .divideByZero)) ∧
    (b.whole ≠ 0 → ∃ r i,
      handleToken evaluate id strict "mod" w =
        (w.put id { c with stack := r :: rest }, .proceed) ∧
      r.IsInteger a.isNegative i ∧ IsRemainder a.whole b.whole i ∧ i = a.whole.tmod b.whole) := by
  have word : Token.isLiteral "mod" = false := by decide
  have enough : ¬c.stack.length < (Operator.builtin (.function (.binary .mod))).arity := by
    rw [operands]
    exact Nat.not_lt.mpr (Nat.le_add_left 2 _)
  have handled (effect : Effect)
      (run : (Builtin.function (.binary .mod)).run? c.settings c.stack = some effect) :
      handleToken evaluate id strict "mod" w =
        (w.put id { c with stack := effect.stack }, effect.outcome) := by
    simp only [handleToken, present, word, listed, if_neg enough, callOperator_builtin run,
      Bool.false_eq_true, if_false]
  have applied : (Function.binary .mod).result? c.settings.elementary (c.stack.take 2).reverse =
      some (BinaryFunction.mod.apply c.settings.elementary a b) := by
    rw [operands]
    rfl
  have left : c.stack.drop 2 = rest := by
    rw [operands]
    rfl
  rcases BinaryFunction.apply_mod finite finite' c.settings.elementary with ⟨refused, answered⟩
  constructor
  · intro zero
    apply handled ⟨rest, .fail .divideByZero⟩
    rw [refused zero] at applied
    simp only [Builtin.run?, Builtin.runFunction, Function.arity, applied, left]
  · intro nonzero
    rcases answered nonzero with ⟨r, result, integer⟩
    refine ⟨r, _, handled ⟨r :: rest, .proceed⟩ ?_, integer, isRemainder_tmod _ nonzero, rfl⟩
    rw [result] at applied
    simp only [Builtin.run?, Builtin.runFunction, Function.arity, applied, left]

/-- The dividend is the least finite value, 39 digits long; what is left of it has ten digits. With
a half on top instead of the divisor the integer part to divide by is zero. -/
theorem handleToken_mod_least :
    let least : Value := .ofInt (-340282346638528859811704183484516925440)
    let calculator (top : Value) : Context := { Context.new {} with stack := [top, least, 7] }
    let world (top : Value) : World := ⟨[calculator top], none, []⟩
    let divisor : Value := .ofInt 10000000000
    let half : Value := .ofRatio false 1 2
    (∃ r : Value, handleToken refuseEvaluation 0 false "mod" (world divisor) =
        ((world divisor).put 0 { calculator divisor with stack := [r, 7] }, .proceed) ∧
      r.IsInteger true (-4516925440)) ∧
    handleToken refuseEvaluation 0 false "mod" (world half) =
      ((world half).put 0 { calculator half with stack := [7] }, .fail .divideByZero) := by
  intro least calculator world divisor half
  have listed (top : Value) : (calculator top).operators.lookup? "mod" =
      some (.builtin (.function (.binary .mod))) :=
    @Context.lookup?_startingOperators {} rfl (.function (.binary .mod)) (by decide)
  have present (top : Value) : (world top).get? 0 = some (calculator top) := rfl
  have finite : least.isFinite = true := by decide +kernel
  have bottom : least.whole = -340282346638528859811704183484516925440 := by decide +kernel
  have whole : divisor.whole = 10000000000 := by decide +kernel
  constructor
  · rcases (handleToken_mod (present divisor) (listed divisor) rfl finite
      (by decide +kernel) refuseEvaluation false).2 (by rw [whole]; decide) with
      ⟨r, i, handled, integer, -, same⟩
    have negative : least.isNegative = true := by decide +kernel
    rw [bottom, whole] at same
    rw [negative, same] at integer
    exact ⟨r, handled, integer⟩
  · exact (handleToken_mod (present half) (listed half) rfl finite
      (by decide +kernel) refuseEvaluation false).1 (by decide +kernel)

end ReversePolish
