/-!
Texts by their bytes.

Limits on stored text count bytes, so that a limit may fall inside a character. What then stands
before the limit is a number of whole characters and some bytes of the next one, which on their own
stand for nothing.
-/

namespace ReversePolish.Text

/-- The number of bytes of a text in its stored form. -/
def byteLength (cs : List Char) : Nat :=
  cs.foldr (fun c n => c.utf8Size + n) 0

/-- The beginning of a text up to some byte. -/
structure Front where
  /-- The characters that lie before the limit. -/
  whole : List Char
  /-- The bytes before the limit of the character that the limit falls into. -/
  broken : List UInt8
  deriving DecidableEq, Repr

/-- The first `limit` bytes of a text. -/
def front : (limit : Nat) → List Char → Front
  | _, [] => ⟨[], []⟩
  | limit, c :: rest =>
    if c.utf8Size ≤ limit then
      let more := front (limit - c.utf8Size) rest
      ⟨c :: more.whole, more.broken⟩
    else ⟨[], (String.utf8EncodeChar c).take limit⟩

/-- The character that is shown for a byte that stands for nothing. -/
def replacement : Char := Char.ofNat 0xfffd

/-- The character that bytes begin with if it has `length` bytes. The bytes after the first hold six
bits each; a character is never stored in more bytes than it needs. -/
def charOfLength? (length : Nat) (bytes : List UInt8) : Option Char :=
  let lead := if length = 1 then 0x80 else Nat.pow 2 (7 - length)
  let base := if length = 1 then 0 else 0x100 - 2 * lead
  match bytes.take length with
  | first :: further =>
    let code := further.foldl (fun n b => n * 0x40 + b.toNat % 0x40) (first.toNat - base)
    let c := Char.ofNat code
    if further.length + 1 = length ∧ base ≤ first.toNat ∧ first.toNat < base + lead ∧
        further.all (fun b => b.toNat / 0x40 == 2) ∧ c.toNat = code ∧ c.utf8Size = length then
      some c
    else none
  | [] => none

/-- The characters that bytes stand for; a byte that belongs to none is replaced. -/
def decode : List UInt8 → List Char
  | [] => []
  | b :: rest =>
    match [1, 2, 3, 4].findSome? (fun n => (charOfLength? n (b :: rest)).map (n, ·)) with
    | some (n, c) => c :: decode (rest.drop (n - 1))
    | none => replacement :: decode rest
termination_by bytes => bytes.length

/-- What is shown of the beginning of a text. -/
def Front.shown (f : Front) : List Char :=
  f.whole ++ List.replicate f.broken.length replacement

end ReversePolish.Text
