import ReversePolish.Text.Bytes
import ReversePolish.Text.Printable

/-!
Quoted text, as messages show the tokens, names and arguments they speak of.

The quoting mark and the backslash are written behind a backslash, the usual control characters
by their letter, and every other character that is not printable by its code point in
hexadecimal: two digits for the ASCII controls, four up to `0xffff`, eight above.
-/

namespace ReversePolish.Text

/-- The lower-case hexadecimal digits of `n`, with zeros in front up to `width` digits. -/
def hexDigits (width n : Nat) : List Char :=
  let digits := Nat.toDigits 16 n
  List.replicate (width - digits.length) '0' ++ digits

/-- The letter that stands for a control character behind a backslash. -/
def controlLetter? (c : Char) : Option Char :=
  match c.toNat with
  | 0x07 => some 'a'
  | 0x08 => some 'b'
  | 0x09 => some 't'
  | 0x0a => some 'n'
  | 0x0b => some 'v'
  | 0x0c => some 'f'
  | 0x0d => some 'r'
  | _ => none

/-- One character as it stands between two quoting marks `mark`. -/
def escapeChar (mark c : Char) : List Char :=
  if c = mark ∨ c = '\\' then ['\\', c]
  else if isPrintable c then [c]
  else
    match controlLetter? c with
    | some letter => ['\\', letter]
    | none =>
      let n := c.toNat
      if n < 0x20 ∨ n = 0x7f then '\\' :: 'x' :: hexDigits 2 n
      else if n < 0x10000 then '\\' :: 'u' :: hexDigits 4 n
      else '\\' :: 'U' :: hexDigits 8 n

/-- A text between the marks `mark`. -/
def quoteWith (mark : Char) (cs : List Char) : String :=
  String.ofList (mark :: cs.flatMap (escapeChar mark) ++ [mark])

/-- A text between double quotes. -/
def quote (s : String) : String :=
  quoteWith '\x22' s.toList

/-- A beginning of a text between double quotes. The bytes of a character that was cut are written
in hexadecimal. -/
def quoteFront (f : Front) : String :=
  String.ofList ('\x22' :: f.whole.flatMap (escapeChar '\x22') ++
    f.broken.flatMap (fun b => '\\' :: 'x' :: hexDigits 2 b.toNat) ++ ['\x22'])

/-- A single character between apostrophes. -/
def quoteChar (c : Char) : String :=
  quoteWith '\x27' [c]

/-- The first character of a text between apostrophes, or the first byte of it if it was cut. -/
def quoteFirst (f : Front) : String :=
  match f.whole, f.broken with
  | c :: _, _ => quoteChar c
  | [], b :: _ =>
    String.ofList ('\x27' :: '\\' :: 'x' :: hexDigits 2 b.toNat ++ ['\x27'])
  | [], [] => quoteWith '\x27' []

end ReversePolish.Text
