import ReversePolish.Json.Basic
import ReversePolish.Text.Bytes
import ReversePolish.Text.Quoted

/-!
JSON text of values: compact, with the fields of objects in the order in which they are kept.

Messages show a value by its kind and a preview, which is its text cut to thirty bytes.
-/

namespace ReversePolish.JsonValue

/-- A character as it stands in a JSON string. -/
def escapedChar (c : Char) : List Char :=
  if c = '\x22' ∨ c = '\\' then ['\\', c]
  else
    match c.toNat with
    | 0x08 => ['\\', 'b']
    | 0x09 => ['\\', 't']
    | 0x0a => ['\\', 'n']
    | 0x0c => ['\\', 'f']
    | 0x0d => ['\\', 'r']
    | n => if n < 0x20 ∨ n = 0x7f then '\\' :: 'u' :: Text.hexDigits 4 n else [c]

/-- The text of a string. -/
def stringText (s : String) : List Char :=
  '\x22' :: s.toList.flatMap escapedChar ++ ['\x22']

/-- Numbers are written positionally from a millionth up to twenty-one digits. -/
def numberLayout : Decimal.Layout := ⟨-6, 21, 1⟩

/-- The text of a number; no document holds one that is not finite. -/
def numberText : Double → List Char
  | .nan => ['n', 'u', 'l', 'l']
  | .signed negative k =>
    (Floating.renderFinite (f := binary64) numberLayout negative (min k (binary64.top - 1))).toList

mutual

/-- The compact text of a value. -/
def compact : JsonValue → List Char
  | .null => ['n', 'u', 'l', 'l']
  | .bool true => ['t', 'r', 'u', 'e']
  | .bool false => ['f', 'a', 'l', 's', 'e']
  | .number x => numberText x
  | .integer i | .wide i => (toString i).toList
  | .string s => stringText s
  | .array [] => ['[', ']']
  | .array (v :: items) => '[' :: compact v ++ compactItems items
  | .object [] => ['\x7b', '\x7d']
  | .object ((name, v) :: fields) =>
    '\x7b' :: stringText name ++ ':' :: compact v ++ compactFields fields

/-- The further items of an array, and its end. -/
def compactItems : List JsonValue → List Char
  | [] => [']']
  | v :: rest => ',' :: compact v ++ compactItems rest

/-- The further fields of an object, and its end. -/
def compactFields : List (String × JsonValue) → List Char
  | [] => ['\x7d']
  | (name, v) :: rest => ',' :: stringText name ++ ':' :: compact v ++ compactFields rest

end

/-- What stands at the end of a preview that was cut. -/
def previewEnd : JsonValue → List Char
  | .string _ => [' ', '.', '.', '.', '\x22']
  | .array _ => [' ', '.', '.', '.', ']']
  | .object _ => [' ', '.', '.', '.', '\x7d']
  | _ => [' ', '.', '.', '.']

/-- The most bytes of a preview. -/
def previewLimit : Nat := 30

/-- The text of a value, cut if it is long. -/
def preview (v : JsonValue) : List Char :=
  let text := compact v
  if Text.byteLength text ≤ previewLimit then text
  else (Text.front (previewLimit - (previewEnd v).length) text).whole ++ previewEnd v

/-- The words for a value in a message. -/
def describe : JsonValue → String
  | .null => "null"
  | v => v.kind ++ " (" ++ String.ofList v.preview ++ ")"

end ReversePolish.JsonValue
