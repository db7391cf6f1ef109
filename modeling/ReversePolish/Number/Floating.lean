/-!
Floating-point numbers, exactly.

The finite magnitudes of a binary format are whole numbers of its *unit*, the smallest positive
magnitude. Listed in ascending order they have a *rank*: rank `0` is zero, and the rank that follows
the greatest finite magnitude stands for infinity. In this reading every operation is an operation
on natural numbers, followed by one rounding to the nearest rank; `Format.nearest` is the only place
where anything is rounded.

The rank of a magnitude is also its stored bit pattern without the sign, so writing a number as bits
needs no further rule. All numbers that are not a number at all are one value, `nan`: no operation
of the calculator tells them apart.
-/

namespace ReversePolish

/-- A binary floating-point format. -/
structure Format where
  /-- Significant bits of a number, the leading one included. -/
  precision : Nat
  /-- The unit is `2 ^ (-scale)`. -/
  scale : Nat
  /-- The rank of infinity. -/
  top : Nat
  deriving DecidableEq, Repr

/-- The single-precision format. -/
def binary32 : Format := ⟨24, 149, 0x7f800000⟩

/-- The double-precision format. -/
def binary64 : Format := ⟨53, 1074, 0x7ff0000000000000⟩

/-- The quotient `n / d` rounded to the nearest whole number; a half goes to the even one. -/
def divideToEven (n d : Nat) : Nat :=
  let q := n / d
  let r := n % d
  if 2 * r < d then q
  else if d < 2 * r then q + 1
  else if q % 2 = 0 then q
  else q + 1

/-- The number of binary digits of `n`; zero has none. -/
def bitLength (n : Nat) : Nat :=
  if n = 0 then 0 else n.log2 + 1

namespace Format

/-- The number one, in units. -/
def one (f : Format) : Nat :=
  Nat.pow 2 f.scale

/-- The number of ranks between two doublings of the step from one rank to the next. -/
def binade (f : Format) : Nat :=
  Nat.pow 2 (f.precision - 1)

/-- How often the step at a rank has been doubled: from rank `k` to the next it is
`2 ^ f.doublings k` units. -/
def doublings (f : Format) (k : Nat) : Nat :=
  k / f.binade - 1

/-- The magnitude of a rank, in units. -/
def units (f : Format) (k : Nat) : Nat :=
  (k - f.doublings k * f.binade) * Nat.pow 2 (f.doublings k)

/-- The rank nearest to `n / d` units; halfway between two ranks, the even one. From halfway between
the greatest finite magnitude and the next step on, this is the rank of infinity. -/
def nearest (f : Format) (n d : Nat) : Nat :=
  let e := bitLength (n / d) - f.precision
  min (e * f.binade + divideToEven n (d * Nat.pow 2 e)) f.top

theorem nearest_le_top (f : Format) (n d : Nat) : f.nearest n d ≤ f.top :=
  Nat.min_le_right _ _

end Format

/-- A number of a binary format: not a number, or a sign with the rank of the magnitude. -/
inductive Floating (f : Format) where
  | nan
  | signed (negative : Bool) (rank : Fin (f.top + 1))
  deriving DecidableEq, Repr

namespace Floating

variable {f g : Format}

/-! ## Making numbers -/

/-- Zero with a sign. -/
def zero (negative : Bool) : Floating f :=
  .signed negative 0

/-- Infinity with a sign. -/
def infinity (negative : Bool) : Floating f :=
  .signed negative (Fin.last f.top)

/-- The number nearest to `n / d` units, with a sign that is kept on zero and on infinity. -/
def ofUnits (negative : Bool) (n d : Nat) : Floating f :=
  .signed negative ⟨f.nearest n d, Nat.lt_succ_of_le (f.nearest_le_top n d)⟩

/-- The number nearest to the quotient `n / d`, with a sign. -/
def ofRatio (negative : Bool) (n d : Nat) : Floating f :=
  ofUnits negative (n * f.one) d

/-- The number nearest to an integer. -/
def ofInt (i : Int) : Floating f :=
  ofRatio (i < 0) i.natAbs 1

instance : Inhabited (Floating f) := ⟨zero false⟩

instance (n : Nat) : OfNat (Floating f) n := ⟨ofInt n⟩

/-! ## Looking at numbers -/

def isNaN : Floating f → Bool
  | .nan => true
  | .signed .. => false

def isInfinite : Floating f → Bool
  | .nan => false
  | .signed _ k => k.val == f.top

/-- Whether the number is zero, of either sign. -/
def isZero : Floating f → Bool
  | .nan => false
  | .signed _ k => k.val == 0

def isNegative : Floating f → Bool
  | .nan => false
  | .signed negative _ => negative

/-- The magnitude in units; zero for what is not a number. -/
def units : Floating f → Nat
  | .nan => 0
  | .signed _ k => f.units k

/-- The position in the order of numbers, the same for both zeros. -/
def position : Floating f → Int
  | .nan => 0
  | .signed negative k => if negative then -(k.val : Int) else k.val

/-- The integer part of the number, toward zero; of infinity and of what is not a number there is
none. -/
def integerPart? : Floating f → Option Int
  | .nan => none
  | .signed negative k =>
    if k.val = f.top then none
    else
      let whole := f.units k / f.one
      some (if negative then -(whole : Int) else whole)

/-- The least positive whole number that is too large for a count: two to the power of 63. -/
def countLimit : Int := 0x8000000000000000

/-- The least whole number that a count can be. -/
def leastCount : Int := -countLimit

/-- The integer part as a count of 64 bits with a sign; what has none, or one that does not fit,
counts as the least. -/
def count (a : Floating f) : Int :=
  match a.integerPart? with
  | some i => if leastCount ≤ i ∧ i < countLimit then i else leastCount
  | none => leastCount

/-! ## Comparing

Nothing holds between two numbers one of which is not a number; the two zeros are equal. -/

def eq (a b : Floating f) : Bool :=
  !a.isNaN && !b.isNaN && a.position == b.position

def lt (a b : Floating f) : Bool :=
  !a.isNaN && !b.isNaN && decide (a.position < b.position)

def le (a b : Floating f) : Bool :=
  !a.isNaN && !b.isNaN && decide (a.position ≤ b.position)

/-! ## Arithmetic

Each operation is the exact one, rounded once. -/

def neg : Floating f → Floating f
  | .nan => .nan
  | .signed negative k => .signed (!negative) k

def abs : Floating f → Floating f
  | .nan => .nan
  | .signed _ k => .signed false k

/-- A whole number of units with a sign of its own; `zeroSign` is the sign of zero. -/
def ofSignedUnits (zeroSign : Bool) (i : Int) : Floating f :=
  if i = 0 then zero zeroSign else ofUnits (i < 0) i.natAbs 1

/-- The magnitude in units with the sign of the number. -/
def signedUnits (a : Floating f) : Int :=
  if a.isNegative then -(a.units : Int) else a.units

/-- The sum. An exact zero is positive unless both terms are negative. -/
def add (a b : Floating f) : Floating f :=
  if a.isNaN || b.isNaN then .nan
  else if a.isInfinite then
    if b.isInfinite && a.isNegative != b.isNegative then .nan else a
  else if b.isInfinite then b
  else ofSignedUnits (a.isNegative && b.isNegative) (a.signedUnits + b.signedUnits)

def sub (a b : Floating f) : Floating f :=
  add a b.neg

def mul (a b : Floating f) : Floating f :=
  let negative := a.isNegative != b.isNegative
  if a.isNaN || b.isNaN then .nan
  else if a.isInfinite || b.isInfinite then
    if a.isZero || b.isZero then .nan else infinity negative
  else ofUnits negative (a.units * b.units) f.one

def div (a b : Floating f) : Floating f :=
  let negative := a.isNegative != b.isNegative
  if a.isNaN || b.isNaN then .nan
  else if a.isInfinite then
    if b.isInfinite then .nan else infinity negative
  else if b.isInfinite then zero negative
  else if b.isZero then
    if a.isZero then .nan else infinity negative
  else ofUnits negative (a.units * f.one) b.units

/-- The remainder of the division that rounds toward zero; it has the sign of `a`. -/
def rem (a b : Floating f) : Floating f :=
  if a.isNaN || b.isNaN || a.isInfinite || b.isZero then .nan
  else if b.isInfinite then a
  else ofUnits a.isNegative (a.units % b.units) 1

instance : Neg (Floating f) := ⟨neg⟩
instance : Add (Floating f) := ⟨add⟩
instance : Sub (Floating f) := ⟨sub⟩
instance : Mul (Floating f) := ⟨mul⟩
instance : Div (Floating f) := ⟨div⟩

/-! ## Whole numbers -/

/-- Replace a finite magnitude by a whole number, found from the magnitude in units; the sign
stays. -/
def mapWhole (whole : Nat → Nat) : Floating f → Floating f
  | .nan => .nan
  | .signed negative k =>
    if k.val = f.top then .signed negative k
    else ofUnits negative (whole (f.units k) * f.one) 1

/-- The whole number toward zero. -/
def trunc (a : Floating f) : Floating f :=
  a.mapWhole (fun u => u / f.one)

/-- The nearest whole number; a half goes away from zero. -/
def roundAway (a : Floating f) : Floating f :=
  a.mapWhole (fun u => (2 * u + f.one) / (2 * f.one))

/-- The least whole number of a magnitude not below `u` units. -/
def wholeAbove (f : Format) (u : Nat) : Nat :=
  (u + (f.one - 1)) / f.one

/-- The greatest whole number that is not greater. -/
def floor (a : Floating f) : Floating f :=
  if a.isNegative then a.mapWhole (wholeAbove f) else a.trunc

/-- The least whole number that is not less. -/
def ceil (a : Floating f) : Floating f :=
  if a.isNegative then a.trunc else a.mapWhole (wholeAbove f)

/-! ## Other formats and bits -/

/-- The nearest number of another format. -/
def convert (a : Floating f) : Floating g :=
  match a with
  | .nan => .nan
  | .signed negative k =>
    if k.val = f.top then infinity negative
    else ofRatio negative (f.units k) f.one

/-- The weight of the sign in the stored bits. -/
def signWeight (f : Format) : Nat :=
  f.top + f.binade

/-- The stored bits. What is not a number is stored with the leading fraction bit set. -/
def toBits : Floating f → Nat
  | .nan => f.top + f.binade / 2
  | .signed negative k => (if negative then signWeight f else 0) + k

/-- The number of a bit pattern. -/
def ofBits (bits : Nat) : Floating f :=
  let k := bits % signWeight f
  if h : k < f.top + 1 then .signed (bits / signWeight f % 2 == 1) ⟨k, h⟩ else .nan

end Floating

end ReversePolish
