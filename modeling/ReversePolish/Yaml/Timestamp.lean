import ReversePolish.Number.Numeral

/-!
Dates and times as plain scalars.

A scalar is a timestamp if it is a date, or a date and a time of day: behind a `T` with a zone, or
behind spaces without one. Only the year has a fixed number of digits; seconds may have a fraction.
-/

namespace ReversePolish.Yaml.Timestamp

/-- Read a number of one or two digits that is less than `limit`. -/
def readNumber? (limit : Nat) (cs : List Char) : Option (Nat × List Char) :=
  let digits := (cs.take 2).takeWhile Numeral.isDecimalDigit
  let n := Numeral.digitsValue 10 digits
  if digits.isEmpty || limit ≤ n then none else some (n, cs.drop digits.length)

/-- Step past a character. -/
def readMark? (mark : Char) : List Char → Option (List Char)
  | c :: rest => if c = mark then some rest else none
  | [] => none

def isLeapYear (year : Nat) : Bool :=
  year % 4 == 0 && (year % 100 != 0 || year % 400 == 0)

/-- The number of days of a month; months count from one. -/
def daysIn (year month : Nat) : Nat :=
  if month = 2 then if isLeapYear year then 29 else 28
  else if month = 4 ∨ month = 6 ∨ month = 9 ∨ month = 11 then 30
  else 31

/-- Read a date. -/
def readDate? (cs : List Char) : Option (List Char) := do
  let year := cs.takeWhile Numeral.isDecimalDigit
  if year.length ≠ 4 then none
  else
    let rest ← readMark? '-' (cs.drop 4)
    let (month, rest) ← readNumber? 13 rest
    let rest ← readMark? '-' rest
    let (day, rest) ← readNumber? 100 rest
    if month = 0 ∨ day = 0 ∨ daysIn (Numeral.digitsValue 10 year) month < day then none
    else some rest

/-- Step past the fraction of a second, if there is one. -/
def skipFraction : List Char → List Char
  | mark :: digit :: rest =>
    if (mark = '.' ∨ mark = ',') ∧ Numeral.isDecimalDigit digit then
      rest.dropWhile Numeral.isDecimalDigit
    else mark :: digit :: rest
  | cs => cs

/-- Read a time of day. -/
def readTime? (cs : List Char) : Option (List Char) := do
  let (_, rest) ← readNumber? 24 cs
  let rest ← readMark? ':' rest
  let (_, rest) ← readNumber? 60 rest
  let rest ← readMark? ':' rest
  let (_, rest) ← readNumber? 60 rest
  pure (skipFraction rest)

/-- Whether a text is a zone: a `Z`, or a sign with hours and minutes. -/
def isZone : List Char → Bool
  | ['Z'] => true
  | [sign, a, b, ':', c, d] =>
    (sign == '+' || sign == '-') && [a, b, c, d].all Numeral.isDecimalDigit &&
      Numeral.digitsValue 10 [a, b] ≤ 24 && Numeral.digitsValue 10 [c, d] ≤ 60
  | _ => false

/-- Whether a text is a timestamp. -/
def isTimestamp (cs : List Char) : Bool :=
  match readDate? cs with
  | none => false
  | some [] => true
  | some (' ' :: rest) => readTime? (rest.dropWhile (· == ' ')) == some []
  | some (mark :: rest) =>
    (mark == 'T' || mark == 't') && (readTime? rest).any isZone

end ReversePolish.Yaml.Timestamp
