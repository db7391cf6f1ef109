import ReversePolish.Value

/-!
The functions behind the advanced operators.

They are computed in double precision and rounded to a value once, by the operator. A context may be
given functions of its own; `Elementary.standard` takes those of the machine, apart from the
remainder, which is exact.
-/

namespace ReversePolish

/-- The machine number of a double. -/
def Double.toFloat (d : Double) : Float :=
  Float.ofBits (Floating.toBits d).toUInt64

/-- The double of a machine number. -/
def Double.ofFloat (x : Float) : Double :=
  Floating.ofBits x.toBits.toNat

/-- The functions that the advanced operators call. They check nothing: the operators do. -/
structure Elementary where
  sqrt : Double → Double
  log : Double → Double
  log10 : Double → Double
  exp : Double → Double
  cos : Double → Double
  fmod : Double → Double → Double
  pow : Double → Double → Double

namespace Elementary

/-- A function on machine numbers as one on doubles. -/
def lift (f : Float → Float) (x : Double) : Double :=
  .ofFloat (f x.toFloat)

/-- The functions of the machine. -/
def standard : Elementary where
  sqrt := lift Float.sqrt
  log := lift Float.log
  log10 := lift Float.log10
  exp := lift Float.exp
  cos := lift Float.cos
  fmod := Floating.rem
  pow x y := .ofFloat (Float.pow x.toFloat y.toFloat)

/-- The sine of an angle as the root of what its cosine leaves; it is never negative. -/
def sine (el : Elementary) (x : Double) : Double :=
  let c := el.cos x
  el.sqrt (1 - c * c)

end Elementary

end ReversePolish
