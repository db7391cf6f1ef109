import ReversePolish.Number.Floating

/-!
Numerals: texts that stand for numbers.

A numeral is read into its exact meaning, digits times a power of ten or of two, and only then
rounded to a format. The texts accepted are a sign followed by

* decimal digits with at most one point among them, and possibly `e` with a signed decimal exponent;
* `0x` and hexadecimal digits with at most one point among them, and always `p` with a signed
  decimal exponent of two;
* `inf` or `infinity`, in any mixture of cases;

and, without a sign, `nan` in any mixture of cases. An underscore may stand between two digits or
between `0x` and a digit, and means nothing.
-/

namespace ReversePolish

/-- The exact meaning of a numeral. -/
inductive Numeral where
  | nan
  | infinity (negative : Bool)
  /-- `digits * base ^ exponent`, with a sign. -/
  | scaled (negative : Bool) (digits base : Nat) (exponent : Int)
  deriving DecidableEq, Repr

namespace Numeral

/-! ## Digits -/

def isDecimalDigit (c : Char) : Bool :=
  '0' ≤ c && c ≤ '9'

theorem isDecimalDigit_iff {c : Char} :
    isDecimalDigit c = true ↔ 48 ≤ c.toNat ∧ c.toNat ≤ 57 := by
  rw [isDecimalDigit, Bool.and_eq_true, decide_eq_true_eq, decide_eq_true_eq]
  exact Iff.rfl

def isHexDigit (c : Char) : Bool :=
  isDecimalDigit c || ('a' ≤ c && c ≤ 'f') || ('A' ≤ c && c ≤ 'F')

/-- The value of a decimal or hexadecimal digit. -/
def digitValue (c : Char) : Nat :=
  if 'a' ≤ c then c.toNat - 'a'.toNat + 10
  else if 'A' ≤ c then c.toNat - 'A'.toNat + 10
  else c.toNat - '0'.toNat

/-- The number that digits stand for in a base. -/
def digitsValue (base : Nat) (cs : List Char) : Nat :=
  cs.foldl (fun n c => base * n + digitValue c) 0

/-- An exponent as large as this is not read any further: no numeral of a readable length is
brought back into the range of a format. -/
def exponentBound : Nat := 10000

/-- The number that the digits of an exponent stand for, without those after the bound has been
reached. -/
def exponentValue (cs : List Char) : Nat :=
  cs.foldl (fun n c => if n < exponentBound then 10 * n + digitValue c else n) 0

/-! ## Parts of a numeral -/

/-- The sign in front of a text, and the rest of it. -/
def splitSign : List Char → Bool × List Char
  | '+' :: rest => (false, rest)
  | '-' :: rest => (true, rest)
  | rest => (false, rest)

/-- Digits before and after a point, and what follows them. -/
structure Mantissa where
  whole : List Char
  fraction : List Char
  rest : List Char

/-- The longest run of digits with at most one point in it. -/
def splitMantissa (isDigit : Char → Bool) (cs : List Char) : Mantissa :=
  let whole := cs.takeWhile isDigit
  match cs.dropWhile isDigit with
  | '.' :: rest => ⟨whole, rest.takeWhile isDigit, rest.dropWhile isDigit⟩
  | rest => ⟨whole, [], rest⟩

/-- A signed decimal exponent that takes up the whole text. -/
def exponent? (cs : List Char) : Option Int :=
  let (negative, digits) := splitSign cs
  if digits.isEmpty || !digits.all isDecimalDigit then none
  else
    let n : Int := exponentValue digits
    some (if negative then -n else n)

/-- An unsigned decimal numeral. -/
def decimal? (negative : Bool) (cs : List Char) : Option Numeral :=
  let m := splitMantissa isDecimalDigit cs
  if m.whole.isEmpty && m.fraction.isEmpty then none
  else
    let digits := digitsValue 10 (m.whole ++ m.fraction)
    let place : Int := -(m.fraction.length : Int)
    match m.rest with
    | [] => some (.scaled negative digits 10 place)
    | mark :: tail =>
      if mark = 'e' ∨ mark = 'E' then
        (exponent? tail).map (fun e => .scaled negative digits 10 (place + e))
      else none

/-- A hexadecimal numeral behind its `0x`. -/
def hexadecimal? (negative : Bool) (cs : List Char) : Option Numeral :=
  let m := splitMantissa isHexDigit cs
  if m.whole.isEmpty && m.fraction.isEmpty then none
  else
    let digits := digitsValue 16 (m.whole ++ m.fraction)
    let place : Int := -(4 * m.fraction.length : Int)
    match m.rest with
    | [] => none
    | mark :: tail =>
      if mark = 'p' ∨ mark = 'P' then
        (exponent? tail).map (fun e => .scaled negative digits 2 (place + e))
      else none

/-- The digits behind `0x`, if a text starts so and goes on. -/
def hexadecimalTail? : List Char → Option (List Char)
  | '0' :: mark :: c :: rest => if mark = 'x' ∨ mark = 'X' then some (c :: rest) else none
  | _ => none

/-- An unsigned numeral in digits. -/
def inDigits? (negative : Bool) (cs : List Char) : Option Numeral :=
  match hexadecimalTail? cs with
  | some rest => hexadecimal? negative rest
  | none => decimal? negative cs

/-- Whether each underscore has a digit on its right, and on its left a digit or the `0x` of the
numeral; `afterDigit` tells what stands to the left of the text. -/
def separatesDigits (isDigit : Char → Bool) (afterDigit : Bool) : List Char → Bool
  | [] => true
  | c :: rest =>
    if c = '_' then
      afterDigit && rest.head?.any isDigit && separatesDigits isDigit false rest
    else separatesDigits isDigit (isDigit c) rest

/-- Whether the underscores of an unsigned numeral stand where they may. -/
def wellSeparated (cs : List Char) : Bool :=
  match hexadecimalTail? cs with
  | some rest => separatesDigits isHexDigit true rest
  | none => separatesDigits isDecimalDigit false cs

/-- The meaning of a numeral; `none` for any other text. -/
def ofChars? (cs : List Char) : Option Numeral :=
  let (negative, body) := splitSign cs
  let word := body.map Char.toLower
  if word = ['i', 'n', 'f'] ∨ word = ['i', 'n', 'f', 'i', 'n', 'i', 't', 'y'] then
    some (.infinity negative)
  else if cs.map Char.toLower = ['n', 'a', 'n'] then some .nan
  else if wellSeparated body then inDigits? negative (body.filter (· != '_'))
  else none

/-- The meaning of a numeral; `none` for any other text. -/
def ofText? (s : String) : Option Numeral :=
  ofChars? s.toList

/-! ## Rounding -/

/-- The number of a format nearest to a numeral. -/
def round {f : Format} : Numeral → Floating f
  | .nan => .nan
  | .infinity negative => .infinity negative
  | .scaled negative digits base (.ofNat e) => .ofRatio negative (digits * Nat.pow base e) 1
  | .scaled negative digits base (.negSucc e) => .ofRatio negative digits (Nat.pow base (e + 1))

/-- Whether a numeral in digits is too large for a format. -/
def overflows (f : Format) (n : Numeral) : Bool :=
  match n with
  | .scaled .. => (n.round : Floating f).isInfinite
  | _ => false

/-- The number that a text stands for; `none` if it is no numeral or too large. -/
def read? {f : Format} (s : String) : Option (Floating f) :=
  match ofText? s with
  | some n => if n.overflows f then none else some n.round
  | none => none

end Numeral

end ReversePolish
