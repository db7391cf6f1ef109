import ReversePolish.Value
import ReversePolish.Yaml.Timestamp

/-!
What scalars of a YAML document mean.

A quoted scalar is a text. A plain one is nothing, a truth value, a number or a timestamp if it is
written like one, and a text otherwise. A tag asks for a meaning, and a scalar that is not written
like that is refused; a tag that asks for no meaning known here leaves the scalar a text.
-/

namespace ReversePolish.Yaml

/-- The meaning of a scalar. -/
inductive Scalar where
  | null
  | bool (b : Bool)
  | integer (i : Int)
  | float (x : Double)
  | timestamp
  | text (s : String)
  deriving DecidableEq, Repr

namespace Scalar

/-- The tag that messages name a meaning by. -/
def tag : Scalar → String
  | .null => "!!null"
  | .bool _ => "!!bool"
  | .integer _ => "!!int"
  | .float _ => "!!float"
  | .timestamp => "!!timestamp"
  | .text _ => "!!str"

/-- The number that digits of a base stand for; `none` if some character is no digit of it. -/
def naturalOf? (base : Nat) (digits : List Char) : Option Nat :=
  if !digits.isEmpty &&
      digits.all (fun c => Numeral.isHexDigit c && Numeral.digitValue c < base) then
    some (Numeral.digitsValue base digits)
  else none

/-- The number that an unsigned text stands for: hexadecimal, octal and binary numbers have a mark
in front, and a leading zero means octal too. -/
def unsigned? : List Char → Option Nat
  | '0' :: mark :: rest =>
    if mark = 'x' ∨ mark = 'X' then naturalOf? 16 rest
    else if mark = 'b' ∨ mark = 'B' then naturalOf? 2 rest
    else if mark = 'o' ∨ mark = 'O' then naturalOf? 8 rest
    else naturalOf? 8 (mark :: rest)
  | cs => naturalOf? 10 cs

/-- Two to the power of 63. -/
def signedLimit : Nat := 0x8000000000000000

/-- Two to the power of 64. -/
def unsignedLimit : Nat := 0x10000000000000000

/-- The integer that a text stands for. With a sign it must fit into 64 bits, without one it may be
as large as 64 bits allow without a sign. -/
def integer? (cs : List Char) : Option Int :=
  let (negative, body) := Numeral.splitSign cs
  match unsigned? body with
  | none => none
  | some n =>
    if negative then if n ≤ signedLimit then some (-(n : Int)) else none
    else if n < signedLimit ∨ (body.length = cs.length ∧ n < unsignedLimit) then some n
    else none

/-- The number that a text in decimal digits stands for, unless it is too large. A point may come
first or last. -/
def float? (cs : List Char) : Option Double :=
  let (negative, body) := Numeral.splitSign cs
  match Numeral.decimal? negative body with
  | some n => if n.overflows binary64 then none else some n.round
  | none => none

/-- The number that digits of a base with a sign stand for, if it fits into 64 bits. -/
def signedDigits? (base : Nat) (cs : List Char) : Option Int :=
  let (negative, digits) := Numeral.splitSign cs
  match naturalOf? base digits with
  | none => none
  | some n =>
    if negative then if n ≤ signedLimit then some (-(n : Int)) else none
    else if n < signedLimit then some n
    else none

/-- The integer that a text stands for if the sign may also stand behind the mark of the base. -/
def markedInteger? : List Char → Option Int
  | '0' :: 'b' :: rest => signedDigits? 2 rest
  | '0' :: 'o' :: rest => signedDigits? 8 rest
  | _ => none

/-- Whether a character can be the first of a number. -/
def startsNumber (c : Char) : Bool :=
  c == '+' || c == '-' || Numeral.isDecimalDigit c

/-- The meaning of a number, or else a text. Underscores in a number mean nothing. -/
def ofNumberLike (s : String) : Scalar :=
  let cs := s.toList.filter (· != '_')
  match integer? cs, float? cs, markedInteger? cs with
  | some i, _, _ => .integer i
  | none, some x, _ => .float x
  | none, none, some i => .integer i
  | none, none, none => .text s

/-- The meaning of a scalar by the way it is written; `dated` says whether it may be a timestamp. -/
def ofText (dated : Bool) (s : String) : Scalar :=
  match s with
  | "" | "~" | "null" | "Null" | "NULL" => .null
  | "true" | "True" | "TRUE" => .bool true
  | "false" | "False" | "FALSE" => .bool false
  | ".nan" | ".NaN" | ".NAN" => .float .nan
  | ".inf" | ".Inf" | ".INF" | "+.inf" | "+.Inf" | "+.INF" => .float (.infinity false)
  | "-.inf" | "-.Inf" | "-.INF" => .float (.infinity true)
  | s =>
    match s.toList with
    | '.' :: _ =>
      match Numeral.read? s with
      | some x => .float x
      | none => .text s
    | c :: rest =>
      if !startsNumber c then .text s
      else if dated && Timestamp.isTimestamp (c :: rest) then .timestamp
      else ofNumberLike s
    | [] => .null

/-- A scalar that is not what its tag asks for. -/
structure TagError where
  meaning : Scalar
  text : String
  tag : String
  deriving DecidableEq, Repr

/-- The words for a scalar that is not what its tag asks for. -/
def TagError.message (e : TagError) : String :=
  "cannot decode " ++ e.meaning.tag ++ " `" ++ e.text ++ "` as a " ++ e.tag

/-- The tags that ask for a meaning. -/
def meaningfulTags : List String :=
  ["!!str", "!!bool", "!!int", "!!float", "!!null", "!!timestamp"]

/-- The meaning of a scalar with a tag. Integers are also floating-point numbers, if they fit into
64 bits with a sign. -/
def resolve (tag s : String) : Except TagError Scalar :=
  if tag = "!!str" ∨ !meaningfulTags.contains tag then .ok (.text s)
  else
    match ofText (tag = "!!timestamp") s with
    | .integer i =>
      if tag = "!!int" then .ok (.integer i)
      else if tag = "!!float" ∧ i < signedLimit then .ok (.float (.ofInt i))
      else .error ⟨.integer i, s, tag⟩
    | meaning => if meaning.tag = tag then .ok meaning else .error ⟨meaning, s, tag⟩

end Scalar

end ReversePolish.Yaml
