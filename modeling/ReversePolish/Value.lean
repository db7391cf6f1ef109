import ReversePolish.Number.Numeral
import ReversePolish.Number.Shortest

/-!
The values of the calculator: single-precision numbers, with the texts they are read from and
written as.

A value written by `Value.render` is read back by `Value.read?`; what is not a number is written
too, and read, although no comparison tells that it is the same.
-/

namespace ReversePolish

/-- The only kind of datum on the stack. -/
abbrev Value := Floating binary32

/-- Numbers in which the less elementary functions are computed before they are rounded. -/
abbrev Double := Floating binary64

namespace Value

/-- Values are written positionally from `0.0001` up to `999999.9`, and otherwise with an exponent
of two digits or more. -/
def layout : Decimal.Layout := ⟨-4, 6, 2⟩

/-- The text of a value. -/
def render : Value → String
  | .nan => "NaN"
  | .signed negative k =>
    if k.val = binary32.top then
      if negative then "-Inf" else "+Inf"
    else Floating.renderFinite (f := binary32) layout negative k

/-- The value that a text stands for; `none` if it is no numeral or too large. -/
def read? (s : String) : Option Value :=
  Numeral.read? s

/-- The truth value of a condition. -/
def ofBool (b : Bool) : Value :=
  if b then 1 else 0

/-- Whether a value counts as true: every value but the two zeros does. -/
def isTrue (v : Value) : Bool :=
  !v.isZero

/-- The value nearest to the ratio of a circle to its diameter. -/
def pi : Value :=
  .ofRatio false 314159265358979323846264338327950288 100000000000000000000000000000000000

/-- The value nearest to the base of the natural logarithm. -/
def e : Value :=
  .ofRatio false 271828182845904523536028747135266249 100000000000000000000000000000000000

end Value

end ReversePolish
