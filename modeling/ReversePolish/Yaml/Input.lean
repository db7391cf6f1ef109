import ReversePolish.Text.Bytes

/-!
The text of a YAML document as it is read.

A text is looked at a window of bytes at a time, and only when more characters are asked for than
have been looked at. A character that no document may hold is noticed with its window; the
characters before it can still be read. Beyond its end a text goes on with null characters.
-/

namespace ReversePolish.Yaml

/-! ## Characters -/

def isBlank (c : Char) : Bool :=
  c == ' ' || c == '\t'

/-- Whether a character ends a line and takes more than one byte. -/
def isWideBreak (c : Char) : Bool :=
  c.toNat == 0x85 || c.toNat == 0x2028 || c.toNat == 0x2029

/-- Whether a character ends a line. -/
def isBreak (c : Char) : Bool :=
  c == '\n' || c == '\r' || isWideBreak c

/-- What a character that ends a line is read as: the separators of lines and paragraphs stay what
they are, and all others are line feeds. -/
def breakChar (c : Char) : Char :=
  if c.toNat == 0x2028 || c.toNat == 0x2029 then c else '\n'

/-- The character that stands beyond the end of a text. -/
def beyond : Char := '\x00'

/-- Whether a line ends in front of a character. -/
def endsLine (c : Char) : Bool :=
  isBreak c || c == beyond

/-- Whether a word ends in front of a character. -/
def endsWord (c : Char) : Bool :=
  isBlank c || endsLine c

/-- Whether the name of an anchor can hold a character. -/
def isNameChar (c : Char) : Bool :=
  c.isAlphanum || c == '_' || c == '-'

/-- Whether a document may hold a character at all. -/
def isAllowed (c : Char) : Bool :=
  let n := c.toNat
  n == 0x9 || n == 0xa || n == 0xd || (0x20 ≤ n && n ≤ 0x7e) || n == 0x85 ||
    (0xa0 ≤ n && n ≤ 0xfffd) || 0x10000 ≤ n

/-- The character that may tell the encoding of a text. -/
def encodingMark : Char := Char.ofNat 0xfeff

/-! ## Windows -/

/-- A text that has been read in part. -/
structure Input where
  /-- What has not been looked at. -/
  hidden : List Char
  /-- The number of bytes that are looked at next. -/
  window : Nat
  /-- What has been looked at and not been read. -/
  ready : List Char
  /-- The number of characters that can be read, null characters beyond the end included. -/
  unread : Nat
  /-- Whether it has been noticed that there is nothing more to look at. -/
  ended : Bool
  /-- Whether a mark of the encoding was the next character when the text was last looked at. -/
  marked : Bool

namespace Input

/-- The number of bytes of a window. -/
def windowSize : Nat := 512

/-- The length in bytes from which a text does not show at once where it ends. -/
def longText : Nat := 3

/-- The start of a text. An empty text is an empty line, and a mark of the encoding at the start
takes up a part of the first window. -/
def ofText (text : String) : Input :=
  let ended := decide (text.utf8ByteSize < longText)
  match text.toList with
  | [] => ⟨['\n'], windowSize, [], 0, ended, false⟩
  | c :: rest =>
    if c = encodingMark then ⟨rest, windowSize - c.utf8Size, [], 0, ended, false⟩
    else ⟨c :: rest, windowSize, [], 0, ended, false⟩

/-- The character `i` places ahead. -/
def ahead (t : Input) (i : Nat) : Char :=
  t.ready[i]?.getD beyond

/-- Step past `n` characters. -/
def drop (t : Input) (n : Nat) : Input :=
  { t with ready := t.ready.drop n, unread := t.unread - n }

/-- Look at the next window. Whether all of its characters are allowed comes last. -/
def look (t : Input) : Input × Bool :=
  let seen := (Text.front t.window t.hidden).whole
  let good := seen.takeWhile isAllowed
  ({ t with
      hidden := t.hidden.drop good.length
      window := windowSize
      ready := t.ready ++ good
      unread := t.unread + good.length }, good.length == seen.length)

/-- Look at windows until `n` characters can be read or the text ends; each time that happens, one
more null character can be read. Whether all that was looked at is allowed comes last. -/
def fill (n : Nat) : (fuel : Nat) → Input → Input × Bool
  | 0, t => (t, true)
  | fuel + 1, t =>
    if n ≤ t.unread then (t, true)
    else
      let (t, allowed) : Input × Bool :=
        if t.hidden.isEmpty then ({ t with ended := true }, true) else t.look
      if !allowed then (t, false)
      else if t.ended then ({ t with unread := t.unread + 1 }, true)
      else fill n fuel t

/-- Make sure that `n` characters can be read, as far as the text has them; whether that was
possible comes last. Each round adds a character or is the last. -/
def request (t : Input) (n : Nat) : Input × Bool :=
  if n ≤ t.unread then (t, true)
  else
    let (t, allowed) := t.fill n (n + 2)
    ({ t with marked := t.ready.head? == some encodingMark }, allowed)

end Input

end ReversePolish.Yaml
