import ReversePolish.Text.Blank
import ReversePolish.Text.Quoted

/-!
Fragments of a text that was cut at byte limits.

A limit may fall inside a character; then some bytes of it stand at the end of one fragment and the
others at the start of the next. Such bytes stand for nothing on their own: they belong to the word
they touch, and are neither blank nor part of any name or number.
-/

namespace ReversePolish.Text

/-- A part of a text between two byte limits. -/
structure Fragment where
  /-- The last bytes of a character that was cut by the first limit. -/
  before : List UInt8
  text : String
  /-- The first bytes of a character that was cut by the second limit. -/
  behind : List UInt8
  deriving DecidableEq, Repr

namespace Fragment

/-- A text that was not cut inside a character. -/
def ofText (s : String) : Fragment :=
  ⟨[], s, []⟩

/-- The text of a fragment that was not cut inside a character. -/
def whole? (f : Fragment) : Option String :=
  if f.before.isEmpty && f.behind.isEmpty then some f.text else none

@[simp] theorem whole?_ofText (s : String) : (ofText s).whole? = some s := rfl

def isEmpty (f : Fragment) : Bool :=
  f.before.isEmpty && f.text.toList.isEmpty && f.behind.isEmpty

/-- What is shown of a fragment: each byte without a meaning is a replacement character. -/
def shown (f : Fragment) : String :=
  String.ofList (List.replicate f.before.length replacement) ++ f.text ++
    String.ofList (List.replicate f.behind.length replacement)

/-- A fragment between double quotes, its bytes without a meaning in hexadecimal. -/
def quote (f : Fragment) : String :=
  let bytes (bs : List UInt8) : List Char :=
    bs.flatMap (fun b => '\\' :: 'x' :: hexDigits 2 b.toNat)
  String.ofList ('\x22' :: bytes f.before ++ f.text.toList.flatMap (escapeChar '\x22') ++
    bytes f.behind ++ ['\x22'])

/-- A fragment without the blanks at its two ends. -/
def trim (f : Fragment) : Fragment :=
  let cs := f.text.toList
  let cs := if f.before.isEmpty then cs.dropWhile isBlank else cs
  let cs := if f.behind.isEmpty then (cs.reverse.dropWhile isBlank).reverse else cs
  { f with text := String.ofList cs }

/-- Whether a fragment starts with a character. -/
def startsWithChar (c : Char) (f : Fragment) : Bool :=
  f.before.isEmpty && Text.startsWithChar c f.text

/-- The first word of a fragment that was cut inside a character, and the text before that word. -/
def firstCut (f : Fragment) : String × Fragment :=
  let isLetter (c : Char) : Bool := !isBlank c
  let cs := f.text.toList
  if f.before.isEmpty then
    let back := cs.reverse
    (String.ofList (back.dropWhile isLetter).reverse,
      ⟨[], String.ofList (back.takeWhile isLetter).reverse, f.behind⟩)
  else
    ("", ⟨f.before, String.ofList (cs.takeWhile isLetter),
      if cs.all isLetter then f.behind else []⟩)

end Fragment

/-- The pieces in which a text is handed on if each has `size` bytes and the last one fewer. The
bytes `pending` of a character that was cut stand in front of the text. A carriage return at the end
of a full piece is left to the next one, since a line feed may follow it there. -/
def pieces (size : Nat) : (fuel : Nat) → (pending : List UInt8) → List Char → List Fragment
  | 0, pending, cs => [⟨pending, String.ofList cs, []⟩]
  | fuel + 1, pending, cs =>
    if pending.length + byteLength cs < size then [⟨pending, String.ofList cs, []⟩]
    else
      let f := front (size - pending.length) cs
      let full : Fragment := ⟨pending, String.ofList f.whole, f.broken⟩
      let early : Fragment := ⟨pending, String.ofList f.whole.dropLast, []⟩
      match cs.drop f.whole.length with
      | c :: rest =>
        if f.broken.isEmpty then
          if f.whole.getLast? = some '\r' then early :: pieces size fuel [] ('\r' :: c :: rest)
          else full :: pieces size fuel [] (c :: rest)
        else full :: pieces size fuel ((String.utf8EncodeChar c).drop f.broken.length) rest
      | [] =>
        if f.whole.getLast? = some '\r' then [early, .ofText "\r"]
        else [full, .ofText ""]

/-- A fragment without one carriage return at its end. -/
def Fragment.dropReturn (f : Fragment) : Fragment :=
  match f.behind, f.text.toList.reverse with
  | [], '\r' :: rest => { f with text := String.ofList rest.reverse }
  | _, _ => f

/-- The lines of a text that is read `size` bytes at a time: a line that does not fit comes in
pieces, each of them a line of its own. -/
def piecedLines (size : Nat) (s : String) : List Fragment :=
  let cut (l : List Char) : List Fragment := pieces size (l.length + 1) [] l
  match (s.toList.splitOnP (· == '\n')).reverse with
  | [] => []
  | last :: before =>
    let ended := (before.reverse.flatMap cut).map Fragment.dropReturn
    ended ++ (cut last).filter (!·.isEmpty)

end ReversePolish.Text
