import ReversePolish.Number.Floating

/-!
Shortest decimal texts of floating-point numbers.

Of the decimals that round to a given number, `shortest` takes one with as few digits as possible,
and of those the one nearest to the number; between two equally near it takes the even digits.

Every finite number is a whole number of steps of `10 ^ (-scale)`, because the unit `2 ^ (-scale)`
is `5 ^ scale` such steps. So the search runs on natural numbers: on the grid of the multiples of
`10 ^ t` steps, for `t` descending, it looks at the two grid points around the number, and it ends
at the first grid with a point that rounds back. On the finest grid the number itself is a point.
-/

namespace ReversePolish

/-- `digits * 10 ^ exponent`. -/
structure Decimal where
  digits : Nat
  exponent : Int
  deriving DecidableEq, Repr

/-- The number of decimal digits of `n`. -/
def digitCount (n : Nat) : Nat :=
  (Nat.toDigits 10 n).length

namespace Decimal

/-- What rounds to a number: twice the number and twice the two ends of its interval, in decimal
steps, and whether the ends belong to the interval. -/
structure Interval where
  low : Nat
  center : Nat
  high : Nat
  closed : Bool

/-- The interval of the reals that round to the magnitude of a rank. Its ends lie halfway to the
neighbours and belong to it when the rank is even. -/
def interval (f : Format) (k : Nat) : Interval :=
  let steps := Nat.pow 5 f.scale
  { low := (f.units (k - 1) + f.units k) * steps
    center := 2 * f.units k * steps
    high := (f.units k + f.units (k + 1)) * steps
    closed := k % 2 == 0 }

/-- Whether twice a decimal number of steps lies in an interval. -/
def Interval.contains (i : Interval) (x : Nat) : Bool :=
  if i.closed then i.low ≤ x && x ≤ i.high else i.low < x && x < i.high

/-- The multiplier of the point taken on the grid of the multiples of `10 ^ t` steps: of the two
points around the center those in the interval, of two the nearer, of two equally near the even. -/
def Interval.pointOn? (i : Interval) (t : Nat) : Option Nat :=
  let grid := 2 * Nat.pow 10 t
  let below := i.center / grid
  let above := below + 1
  match i.contains (below * grid), i.contains (above * grid) with
  | true, true =>
    let down := i.center - below * grid
    let up := above * grid - i.center
    if down < up ∨ (down = up ∧ below % 2 = 0) then some below else some above
  | true, false => some below
  | false, true => some above
  | false, false => none

/-- The point of the coarsest grid that has one, from the grid `10 ^ t` on. -/
def Interval.coarsest (i : Interval) : Nat → Nat × Nat
  | 0 => ((i.pointOn? 0).getD (i.center / 2), 0)
  | t + 1 =>
    match i.pointOn? (t + 1) with
    | some digits => (digits, t + 1)
    | none => i.coarsest t

/-- A shortest decimal that rounds to the magnitude of a rank. -/
def shortest (f : Format) (k : Nat) : Decimal :=
  let i := interval f k
  let (digits, t) := i.coarsest (digitCount (i.center / 2) - 1)
  if digits % 10 = 0 ∧ digits ≠ 0 then ⟨digits / 10, t + 1 - f.scale⟩ else ⟨digits, t - f.scale⟩

/-! ## Text -/

/-- How decimals are laid out: exponents of the leading digit from `positionalFrom` up to
`positionalBelow` are written positionally, all others behind `e`, with a sign and at least
`exponentDigits` digits. -/
structure Layout where
  positionalFrom : Int
  positionalBelow : Int
  exponentDigits : Nat

/-- Digits with the point after the first `place` of them, filled up with zeros on either side. -/
def positional (digits : List Char) (place : Int) : List Char :=
  if place ≤ 0 then '0' :: '.' :: List.replicate (-place).toNat '0' ++ digits
  else
    let n := place.toNat
    if digits.length ≤ n then digits ++ List.replicate (n - digits.length) '0'
    else digits.take n ++ '.' :: digits.drop n

/-- Digits with the point after the first of them, and the exponent of that digit behind `e`. -/
def scientific (layout : Layout) (digits : List Char) (exponent : Int) : List Char :=
  let mantissa :=
    match digits with
    | first :: c :: rest => first :: '.' :: c :: rest
    | short => short
  let e := Nat.toDigits 10 exponent.natAbs
  mantissa ++ 'e' :: (if exponent < 0 then '-' else '+') ::
    (List.replicate (layout.exponentDigits - e.length) '0' ++ e)

/-- The text of a decimal. -/
def render (layout : Layout) (d : Decimal) : List Char :=
  let digits := Nat.toDigits 10 d.digits
  let leading : Int := d.exponent + (digits.length : Int) - 1
  if layout.positionalFrom ≤ leading ∧ leading < layout.positionalBelow then
    positional digits (leading + 1)
  else scientific layout digits leading

end Decimal

/-- The text of a finite number in its fewest digits. Both zeros are written with a single digit. -/
def Floating.renderFinite {f : Format} (layout : Decimal.Layout) (negative : Bool) (rank : Nat) :
    String :=
  let digits := if rank = 0 then ['0'] else (Decimal.shortest f rank).render layout
  String.ofList (if negative then '-' :: digits else digits)

end ReversePolish
