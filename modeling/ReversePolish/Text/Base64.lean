/-!
Bytes as text in base 64.

Four letters of six bits each stand for three bytes. A last group that stands for one or two bytes
is filled up with equals signs; bits of it that no byte takes up are ignored. Line ends mean nothing
wherever they stand.
-/

namespace ReversePolish.Text.Base64

/-- The six bits that a letter stands for. -/
def digit? (c : Char) : Option Nat :=
  if c.isUpper then some (c.toNat - 'A'.toNat)
  else if c.isLower then some (c.toNat - 'a'.toNat + 26)
  else if c.isDigit then some (c.toNat - '0'.toNat + 52)
  else if c = '+' then some 62
  else if c = '/' then some 63
  else none

/-- The first bytes of 24 bits. -/
def bytesOf (bits : Nat) : List UInt8 :=
  [(bits / 0x10000).toUInt8, (bits / 0x100).toUInt8, bits.toUInt8]

/-- The bytes that letters without line ends stand for. -/
def decodeLetters? : List Char → Option (List UInt8)
  | [] => some []
  | [a, b, '=', '='] => do
    let a ← digit? a
    let b ← digit? b
    pure ((bytesOf (a * 0x40000 + b * 0x1000)).take 1)
  | [a, b, c, '='] => do
    let a ← digit? a
    let b ← digit? b
    let c ← digit? c
    pure ((bytesOf (a * 0x40000 + b * 0x1000 + c * 0x40)).take 2)
  | a :: b :: c :: d :: rest => do
    let a ← digit? a
    let b ← digit? b
    let c ← digit? c
    let d ← digit? d
    let more ← decodeLetters? rest
    pure (bytesOf (a * 0x40000 + b * 0x1000 + c * 0x40 + d) ++ more)
  | _ => none

/-- The bytes that a text stands for. -/
def decode? (s : String) : Option (List UInt8) :=
  decodeLetters? (s.toList.filter (fun c => c != '\n' && c != '\r'))

end ReversePolish.Text.Base64
