import ReversePolish.Json.Basic
import ReversePolish.Number.Numeral
import ReversePolish.Text.Bytes
import ReversePolish.Text.Quoted

/-!
Reading a JSON value from the start of a text. What follows the value is not looked at.

The first character that no value can go on with is reported together with the place where it
stands, cut where the part of the text ends that was looked at by then, and a text that ends too
early is told from one that holds no value at all. Numbers that are too large are noticed only once
the whole value is known to be well-formed; the first of them in the order of the text is reported
with the names and places that lead to it.
-/

namespace ReversePolish.JsonValue

/-- Where a text may go wrong. -/
inductive Place where
  | valueStart
  | nameStart
  | afterName
  | afterField
  | afterItem
  | number
  | string
  | literal (word : String) (expected : Char)
  deriving DecidableEq, Repr

/-- The words for a place. -/
def Place.describe : Place → String
  | .valueStart => "looking for beginning of value"
  | .nameStart => "looking for beginning of object key string"
  | .afterName => "after object key"
  | .afterField => "after object key:value pair"
  | .afterItem => "after array element"
  | .number => "in numeric literal"
  | .string => "in string"
  | .literal word expected =>
    "in literal " ++ word ++ " (expecting " ++ Text.quoteChar expected ++ ")"

/-- A number that is too large. -/
structure TooLarge where
  /-- The names and places that lead to it. -/
  path : List String
  written : String
  /-- Whether it is an item of an array. -/
  isItem : Bool
  deriving DecidableEq, Repr

/-- Why a text holds no value. -/
inductive ReadError where
  | missing
  | truncated
  /-- The text from a character on that no value can go on with, as far as it is shown. -/
  | unexpected (written : Text.Front) (place : Place)
  /-- A backslash in a string, and what stands behind it as far as it is shown. -/
  | badEscape (written : Text.Front)
  | tooDeep
  | tooLarge (t : TooLarge)
  deriving DecidableEq, Repr

/-- A name as a step of a path, in which slashes divide the steps. -/
def stepText (name : String) : String :=
  String.ofList (name.toList.flatMap (fun
    | '~' => ['~', '0']
    | '/' => ['~', '1']
    | c => [c]))

/-- A bad escape between backquotes if it is plain enough, and quoted otherwise. -/
def escapeText (written : Text.Front) : String :=
  if written.broken.isEmpty &&
      written.whole.all (fun c => Text.isPrintable c && !" \x60\uFFFD".toList.contains c) then
    "`" ++ String.ofList written.whole ++ "`"
  else Text.quoteFront written

/-- The words for a text that holds no value. -/
def ReadError.message : ReadError → String
  | .missing => "EOF"
  | .truncated => "unexpected EOF"
  | .unexpected written place =>
    "invalid character " ++ Text.quoteFirst written ++ " " ++ place.describe
  | .badEscape written => "invalid escape sequence " ++ escapeText written ++ " in string"
  | .tooDeep => "exceeded max depth"
  | .tooLarge t =>
    let path := String.intercalate "." (t.path.map stepText)
    "json: cannot unmarshal number " ++ t.written ++ " into " ++
      (if path = "" then "Go value"
      else if t.isItem then "." ++ path
      else "Go struct field ." ++ path) ++ " of type float64"

def isSpace (c : Char) : Bool :=
  c == ' ' || c == '\t' || c == '\n' || c == '\r'

/-- A text without the white space in front of it. -/
def skip (cs : List Char) : List Char :=
  cs.dropWhile isSpace

/-! ## Words -/

/-- Read the rest of a word. -/
def readWord (word : String) : List Char → List Char → Except ReadError (List Char)
  | [], rest => .ok rest
  | _ :: _, [] => .error .truncated
  | e :: expected, c :: rest =>
    if c = e then readWord word expected rest
    else .error (.unexpected ⟨c :: rest, []⟩ (.literal word e))

/-! ## Strings -/

/-- A part of a string: a character, or the unit that an escape stands for. -/
inductive Piece where
  | plain (c : Char)
  | unit (n : Nat)

/-- The character that a letter stands for behind a backslash. -/
def escaped? : Char → Option Char
  | '\x22' => some '\x22'
  | '\\' => some '\\'
  | '/' => some '/'
  | 'b' => some '\x08'
  | 'f' => some '\x0c'
  | 'n' => some '\n'
  | 'r' => some '\r'
  | 't' => some '\t'
  | _ => none

/-- The parts of a string up to its closing mark. Of a bad escape, all of the text from its
backslash on is reported. -/
def readPieces : List Char → Except ReadError (List Piece × List Char)
  | [] => .error .truncated
  | '\x22' :: rest => .ok ([], rest)
  | '\\' :: 'u' :: a :: b :: c :: d :: rest =>
    if [a, b, c, d].all Numeral.isHexDigit then
      match readPieces rest with
      | .ok (pieces, rest) => .ok (.unit (Numeral.digitsValue 16 [a, b, c, d]) :: pieces, rest)
      | .error e => .error e
    else .error (.badEscape ⟨'\\' :: 'u' :: a :: b :: c :: d :: rest, []⟩)
  | '\\' :: 'u' :: short =>
    if short.all Numeral.isHexDigit then .error .truncated
    else .error (.badEscape ⟨'\\' :: 'u' :: short, []⟩)
  | ['\\'] => .error .truncated
  | '\\' :: letter :: rest =>
    match escaped? letter with
    | none => .error (.badEscape ⟨'\\' :: letter :: rest, []⟩)
    | some c =>
      match readPieces rest with
      | .ok (pieces, rest) => .ok (.plain c :: pieces, rest)
      | .error e => .error e
  | c :: rest =>
    if c.toNat < 0x20 then .error (.unexpected ⟨c :: rest, []⟩ .string)
    else
      match readPieces rest with
      | .ok (pieces, rest) => .ok (.plain c :: pieces, rest)
      | .error e => .error e

/-- Whether a unit is the first half of a pair. -/
def isHighHalf (n : Nat) : Bool :=
  0xd800 ≤ n && n < 0xdc00

/-- Whether a unit is the second half of a pair. -/
def isLowHalf (n : Nat) : Bool :=
  0xdc00 ≤ n && n < 0xe000

/-- The character of a unit; a half on its own becomes the replacement character. -/
def unitChar (n : Nat) : Char :=
  if isHighHalf n || isLowHalf n then Char.ofNat 0xfffd else Char.ofNat n

/-- The characters of a string. Two units that are the halves of a pair are one character. -/
def joinPieces : List Piece → List Char
  | [] => []
  | .plain c :: rest => c :: joinPieces rest
  | .unit high :: .unit low :: rest =>
    if isHighHalf high && isLowHalf low then
      Char.ofNat (0x10000 + (high - 0xd800) * 0x400 + (low - 0xdc00)) :: joinPieces rest
    else unitChar high :: joinPieces (.unit low :: rest)
  | .unit n :: rest => unitChar n :: joinPieces rest

/-- Read a string behind its opening mark. -/
def readString (cs : List Char) : Except ReadError (String × List Char) :=
  match readPieces cs with
  | .ok (pieces, rest) => .ok (String.ofList (joinPieces pieces), rest)
  | .error e => .error e

/-! ## Numbers -/

/-- Read a run of digits that must not be empty. -/
def readDigits : List Char → Except ReadError (List Char × List Char)
  | [] => .error .truncated
  | c :: rest =>
    if Numeral.isDecimalDigit c then
      .ok ((c :: rest).span Numeral.isDecimalDigit)
    else .error (.unexpected ⟨c :: rest, []⟩ .number)

/-- Read the digits before the point. A zero stands alone. -/
def readWhole : List Char → Except ReadError (List Char × List Char)
  | '0' :: rest => .ok (['0'], rest)
  | cs => readDigits cs

/-- Read the digits behind the point, if there is one. -/
def readFraction : List Char → Except ReadError (List Char × List Char)
  | '.' :: rest => readDigits rest
  | rest => .ok ([], rest)

/-- Read an exponent, if there is one. -/
def readExponent : List Char → Except ReadError (Int × List Char)
  | [] => .ok (0, [])
  | mark :: rest =>
    if mark = 'e' ∨ mark = 'E' then
      let (negative, digits) := Numeral.splitSign rest
      match readDigits digits with
      | .ok (digits, rest) =>
        let n : Int := Numeral.exponentValue digits
        .ok (if negative then -n else n, rest)
      | .error e => .error e
    else .ok (0, mark :: rest)

/-- A value that was read, and the first number in it that is too large. -/
structure Reading where
  value : JsonValue
  tooLarge : Option TooLarge := none

/-- The first number that is too large in what was read before, or else in the part `step` that was
read now, which is an item or a field. -/
def firstTooLarge (before : Option TooLarge) (step : String) (isItem : Bool)
    (now : Option TooLarge) : Option TooLarge :=
  before <|> now.map (fun t =>
    ⟨step :: t.path, t.written, if t.path.isEmpty then isItem else t.isItem⟩)

/-- Read a number. -/
def readNumber (cs : List Char) : Except ReadError (Reading × List Char) := do
  let (negative, body) : Bool × List Char :=
    match cs with
    | '-' :: rest => (true, rest)
    | rest => (false, rest)
  let (whole, rest) ← readWhole body
  let (fraction, rest) ← readFraction rest
  let (exponent, rest) ← readExponent rest
  let n := Numeral.scaled negative (Numeral.digitsValue 10 (whole ++ fraction)) 10
    (exponent - fraction.length)
  let written := String.ofList (cs.take (cs.length - rest.length))
  let tooLarge := if n.overflows binary64 then some ⟨[], written, false⟩ else none
  .ok (⟨.number n.round, tooLarge⟩, rest)

/-! ## Values -/

/-- The most collections that may stand inside each other. -/
def depthLimit : Nat := 10000

mutual

/-- Read a value inside `depth` collections; `fuel` bounds the number of parts of the value. -/
def readValue : (fuel depth : Nat) → List Char → Except ReadError (Reading × List Char)
  | 0, _, _ => .error .truncated
  | fuel + 1, depth, cs =>
    let literal (word : String) (v : JsonValue) (cs : List Char) :
        Except ReadError (Reading × List Char) :=
      (readWord word word.toList cs).map (fun rest => (⟨v, none⟩, rest))
    match skip cs with
    | [] => .error .truncated
    | '\x7b' :: rest =>
      if depth = depthLimit then .error .tooDeep
      else
        match skip rest with
        | '\x7d' :: rest => .ok (⟨.object [], none⟩, rest)
        | rest => readFields fuel (depth + 1) [] none rest
    | '[' :: rest =>
      if depth = depthLimit then .error .tooDeep
      else
        match skip rest with
        | ']' :: rest => .ok (⟨.array [], none⟩, rest)
        | rest => readItems fuel (depth + 1) [] none rest
    | '\x22' :: rest => (readString rest).map (fun (s, rest) => (⟨.string s, none⟩, rest))
    | c :: rest =>
      if c = 'n' then literal "null" .null (c :: rest)
      else if c = 't' then literal "true" (.bool true) (c :: rest)
      else if c = 'f' then literal "false" (.bool false) (c :: rest)
      else if c = '-' ∨ Numeral.isDecimalDigit c then readNumber (c :: rest)
      else .error (.unexpected ⟨c :: rest, []⟩ .valueStart)

/-- Read the fields of an object up to its end, after the fields read before. -/
def readFields : (fuel depth : Nat) → List (String × JsonValue) → Option TooLarge → List Char →
    Except ReadError (Reading × List Char)
  | 0, _, _, _, _ => .error .truncated
  | fuel + 1, depth, fields, tooLarge, cs =>
    match skip cs with
    | [] => .error .truncated
    | '\x22' :: rest => do
      let (name, rest) ← readString rest
      match skip rest with
      | [] => .error .truncated
      | ':' :: rest =>
        let (r, rest) ← readValue fuel depth rest
        let fields := insertField name r.value fields
        let tooLarge := firstTooLarge tooLarge name false r.tooLarge
        match skip rest with
        | [] => .error .truncated
        | ',' :: rest => readFields fuel depth fields tooLarge rest
        | '\x7d' :: rest => .ok (⟨.object fields, tooLarge⟩, rest)
        | rest => .error (.unexpected ⟨rest, []⟩ .afterField)
      | rest => .error (.unexpected ⟨rest, []⟩ .afterName)
    | rest => .error (.unexpected ⟨rest, []⟩ .nameStart)

/-- Read the items of an array up to its end; those read before are held last one first. -/
def readItems : (fuel depth : Nat) → List JsonValue → Option TooLarge → List Char →
    Except ReadError (Reading × List Char)
  | 0, _, _, _, _ => .error .truncated
  | fuel + 1, depth, items, tooLarge, cs => do
    let (r, rest) ← readValue fuel depth cs
    let tooLarge := firstTooLarge tooLarge (toString items.length) true r.tooLarge
    match skip rest with
    | [] => .error .truncated
    | ',' :: rest => readItems fuel depth (r.value :: items) tooLarge rest
    | ']' :: rest => .ok (⟨.array (r.value :: items).reverse, tooLarge⟩, rest)
    | rest => .error (.unexpected ⟨rest, []⟩ .afterItem)

end

/-! ## Documents -/

/-- The number of bytes of a text that are looked at first; they are doubled as often as needed. -/
def firstWindow : Nat := 64

/-- The first window that goes beyond a byte. -/
def windowBeyond (byte : Nat) : (fuel window : Nat) → Nat
  | 0, window => window
  | fuel + 1, window =>
    if byte < window then window else windowBeyond byte fuel (2 * window)

/-- Whether a text can be the beginning of an escape by code point. -/
def beginsEscape : List Char → Bool
  | ['\\'] => true
  | '\\' :: 'u' :: digits => digits.all Numeral.isHexDigit
  | _ => false

/-- The part of a bad escape that is shown, of the text from its backslash on: two bytes, or six for
a code point, unless the window ends inside and it is clear by then that the escape is bad. -/
def shownEscape (length : Nat) (cs : List Char) : Text.Front :=
  match cs with
  | '\\' :: 'u' :: _ =>
    let byte := length - Text.byteLength cs
    let visible := Text.front (min 6 (windowBeyond byte length firstWindow - byte)) cs
    if visible.broken.isEmpty && beginsEscape visible.whole then Text.front 6 cs else visible
  | cs => Text.front 2 cs

/-- The part that is shown of the text from a misplaced character on: that character, unless the
window ends inside it. -/
def shownCharacter (length : Nat) (cs : List Char) : Text.Front :=
  let byte := length - Text.byteLength cs
  Text.front (windowBeyond byte length firstWindow - byte) (cs.take 1)

/-- Read the value at the start of a text. Each part of a value takes up a character, so there are
fewer parts than the fuel allows. -/
def read (text : String) : Except ReadError JsonValue :=
  let cs := text.toList
  if (skip cs).isEmpty then .error .missing
  else
    match readValue (2 * cs.length + 2) 0 cs with
    | .error (.badEscape written) =>
      .error (.badEscape (shownEscape text.utf8ByteSize written.whole))
    | .error (.unexpected written place) =>
      .error (.unexpected (shownCharacter text.utf8ByteSize written.whole) place)
    | .error e => .error e
    | .ok (⟨_, some t⟩, _) => .error (.tooLarge t)
    | .ok (⟨v, none⟩, _) => .ok v

end ReversePolish.JsonValue
