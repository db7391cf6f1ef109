import ReversePolish.Number.Elementary
import ReversePolish.Status

/-!
Builtin functions: operators that take a fixed number of operands off the stack and put one result
on it.

They are grouped by their number of operands, and each is a function of its operands in the order in
which they are written: `a b -` is `a - b`. A function may refuse its operands, and then they are
gone all the same.
-/

namespace ReversePolish

/-- Constants. -/
inductive Constant where
  | pi
  | e
  deriving DecidableEq, Repr

/-- Functions of one operand. -/
inductive UnaryFunction where
  | abs
  | sqrt
  | log
  | log10
  | exp
  | cos
  | sin
  | tan
  | not
  | ceil
  | floor
  | int
  deriving DecidableEq, Repr

/-- Functions of two operands. -/
inductive BinaryFunction where
  | add
  | sub
  | mul
  | div
  | mod
  | fmod
  | pow
  | eq
  | ne
  | gt
  | ge
  | lt
  | le
  | cmp
  | and
  | or
  | xor
  | round
  deriving DecidableEq, Repr

/-- Functions of three operands. -/
inductive TernaryFunction where
  | cmp3
  | constrain
  | ifn
  deriving DecidableEq, Repr

namespace Constant

def value : Constant → Value
  | .pi => .pi
  | .e => .e

end Constant

namespace UnaryFunction

/-- A function computed in double precision. -/
def viaDouble (f : Double → Double) (a : Value) : Value :=
  (f a.convert).convert

/-- The result for an operand, or the reason to refuse it. -/
def apply (el : Elementary) (f : UnaryFunction) (a : Value) : Except Status Value :=
  match f with
  | .abs => .ok a.abs
  | .sqrt => if a.lt 0 then .error .invalidArgument else .ok (viaDouble el.sqrt a)
  | .log => if a.le 0 then .error .invalidArgument else .ok (viaDouble el.log a)
  | .log10 => if a.le 0 then .error .invalidArgument else .ok (viaDouble el.log10 a)
  | .exp => .ok (viaDouble el.exp a)
  | .cos => .ok (viaDouble el.cos a)
  | .sin => .ok (viaDouble el.sine a)
  | .tan =>
    let x : Double := a.convert
    let c := el.cos x
    if c.isZero then .error .invalidArgument else .ok (el.sine x / c).convert
  | .not => .ok (.ofBool a.isZero)
  | .ceil => .ok a.ceil
  | .floor => .ok a.floor
  | .int => .ok a.floor

end UnaryFunction

namespace BinaryFunction

/-- The most decimal places that `round` keeps. -/
def maxDecimals : Nat := 8

/-- A value rounded to decimal places, a half away from zero. The scaling is done in double
precision. -/
def roundTo (places : Nat) (a : Value) : Value :=
  let scale : Double := .ofInt (Nat.pow 10 places)
  ((a.convert * scale).roundAway / scale).convert

/-- The result for two operands, or the reason to refuse them. -/
def apply (el : Elementary) (f : BinaryFunction) (a b : Value) : Except Status Value :=
  match f with
  | .add => .ok (a + b)
  | .sub => .ok (a - b)
  | .mul => .ok (a * b)
  | .div => if b.isZero then .error .divideByZero else .ok (a / b)
  | .mod =>
    let x : Double := a.convert
    let y : Double := b.convert
    if y.trunc.isZero then .error .divideByZero else .ok (x.trunc.rem y.trunc).convert
  | .fmod => if b.isZero then .error .divideByZero else .ok (el.fmod a.convert b.convert).convert
  | .pow => .ok (el.pow a.convert b.convert).convert
  | .eq => .ok (.ofBool (a.eq b))
  | .ne => .ok (.ofBool (!a.eq b))
  | .gt => .ok (.ofBool (b.lt a))
  | .ge => .ok (.ofBool (b.le a))
  | .lt => .ok (.ofBool (a.lt b))
  | .le => .ok (.ofBool (a.le b))
  | .cmp => .ok (if a.lt b then -1 else if b.lt a then 1 else 0)
  | .and => .ok (.ofBool (Value.isTrue a && Value.isTrue b))
  | .or => .ok (.ofBool (Value.isTrue a || Value.isTrue b))
  | .xor => .ok (.ofBool (Value.isTrue a != Value.isTrue b))
  | .round =>
    let places := b.count
    if places < 0 ∨ maxDecimals < places then .error .invalidArgument
    else .ok (roundTo places.toNat a)

end BinaryFunction

namespace TernaryFunction

/-- The result for three operands. -/
def apply (f : TernaryFunction) (a b c : Value) : Value :=
  match f with
  | .cmp3 => if a.lt b then -1 else if c.lt a then 1 else 0
  | .constrain => if a.lt b then b else if c.lt a then c else a
  | .ifn => if Value.isTrue a then b else c

end TernaryFunction

/-- Move `v` from the range between `fromLow` and `fromHigh`, to which it is confined first, to the
range between `toLow` and `toHigh`. -/
def rescale (v fromLow fromHigh toLow toHigh : Value) : Except Status Value :=
  if fromHigh.eq fromLow then .error .invalidArgument
  else
    let v := if v.lt fromLow then fromLow else v
    let v := if fromHigh.lt v then fromHigh else v
    .ok (toLow + (v - fromLow) * (toHigh - toLow) / (fromHigh - fromLow))

/-- The builtin functions. -/
inductive Function where
  | constant (c : Constant)
  | unary (f : UnaryFunction)
  | binary (f : BinaryFunction)
  | ternary (f : TernaryFunction)
  | rescale
  deriving DecidableEq, Repr

namespace Function

/-- The number of operands. -/
def arity : Function → Nat
  | .constant _ => 0
  | .unary _ => 1
  | .binary _ => 2
  | .ternary _ => 3
  | .rescale => 5

/-- The result for a list of operands in written order; `none` if their number is wrong. -/
def result? (el : Elementary) : Function → List Value → Option (Except Status Value)
  | .constant c, [] => some (.ok c.value)
  | .unary f, [a] => some (f.apply el a)
  | .binary f, [a, b] => some (f.apply el a b)
  | .ternary f, [a, b, c] => some (.ok (f.apply a b c))
  | .rescale, [v, fromLow, fromHigh, toLow, toHigh] =>
    some (ReversePolish.rescale v fromLow fromHigh toLow toHigh)
  | _, _ => none

/-- A function has a result or a refusal exactly for as many operands as its arity. -/
theorem isSome_result?_iff (el : Elementary) (f : Function) (args : List Value) :
    (f.result? el args).isSome ↔ args.length = f.arity := by
  rcases f with c | f | f | f | _ <;>
    rcases args with _ | ⟨a, _ | ⟨b, _ | ⟨c, _ | ⟨d, _ | ⟨e, _ | ⟨g, rest⟩⟩⟩⟩⟩⟩ <;>
    simp [result?, arity]

end Function

end ReversePolish
