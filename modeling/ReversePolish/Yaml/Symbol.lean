import ReversePolish.Yaml.ScalarText

/-!
Symbols of a YAML document.

The reader of a configuration works on symbols: scalars, the marks of flow collections, and the
block structure that follows from indentation. This module finds them. Where a mapping begins is
only known at the colon behind its first key, so the places where a key may have begun are kept
until the colon comes, and the symbols that announce the key are put in front of it then.

Symbols are looked for only as they are needed: a symbol is taken once the two behind it are there,
and, if a key may have begun with it, once it is known whether one has. What cannot be read is
noticed then and no earlier.
-/

namespace ReversePolish.Yaml.Scanner

/-! ## Names -/

/-- Whether the name of an anchor may be followed by a character. -/
def endsAnchor (c : Char) : Bool :=
  endsWord c || "?:,]\x7d%@\x60".toList.contains c

/-- Read the name of an anchor and the mark in front of it. -/
def readAnchor : Scanner String := do
  let start := (← get).mark
  skip
  need 1
  let name ← takeWhile isNameChar
  if name.isEmpty || !endsAnchor (← next) then
    refuse start "did not find expected alphabetic or numeric character"
  else pure (String.ofList name)

/-! ## Tags -/

/-- The number of bytes of a character by its first one. -/
def sequenceLength? (first : Nat) : Option Nat :=
  if first < 0x80 then some 1
  else if first < 0xc0 then none
  else if first < 0xe0 then some 2
  else if first < 0xf0 then some 3
  else if first < 0xf8 then some 4
  else none

/-- Read an escaped byte of a tag. -/
def readOctet (start : Mark) : Scanner Nat := do
  need 3
  let s ← get
  let digits := [s.ahead 1, s.ahead 2]
  if s.ahead 0 == '%' && digits.all Numeral.isHexDigit then pure (Numeral.digitsValue 16 digits)
  else refuse start "did not find URI escaped octet"

/-- Read `n` further escaped bytes of a character. -/
def readFurtherOctets (start : Mark) : (n : Nat) → Scanner (List UInt8)
  | 0 => pure []
  | n + 1 => do
    let octet ← readOctet start
    if octet / 0x40 ≠ 2 then refuse start "found an incorrect trailing UTF-8 octet"
    else
      skip
      skip
      skip
      return octet.toUInt8 :: (← readFurtherOctets start n)

/-- Read an escaped character of a tag. -/
def readEscapedChar (start : Mark) : Scanner (List Char) := do
  let first ← readOctet start
  match sequenceLength? first with
  | none => refuse start "found an incorrect leading UTF-8 octet"
  | some n =>
    skip
    skip
    skip
    return Text.decode (first.toUInt8 :: (← readFurtherOctets start (n - 1)))

/-- Whether a tag can hold a character; a percent sign begins an escaped one. -/
def isTagChar (c : Char) : Bool :=
  isNameChar c || ";/?:@&=+$,.!~*'()[]%".toList.contains c

/-- Read characters of a tag; those read before are held last one first. -/
def readTagChars (start : Mark) : (fuel : Nat) → List Char → Scanner (List Char)
  | 0, sofar => pure sofar.reverse
  | fuel + 1, sofar => do
    let c ← next
    if isTagChar c then
      let sofar ←
        if c == '%' then
          pure ((← readEscapedChar start).reverse ++ sofar)
        else
          skip
          pure (c :: sofar)
      need 1
      readTagChars start fuel sofar
    else pure sofar.reverse

/-- Read the main part of a tag. It may be empty only if something stands before it. -/
def readTagText (start : Mark) (continued : Bool) : Scanner String := do
  need 1
  let before ← get
  let text ← readTagChars start before.bound []
  if !continued && (← get).mark.index = before.mark.index then
    refuse start "did not find expected tag URI"
  else pure (String.ofList text)

/-- Read a handle: a mark, or a name between two marks. If it does not end with a mark, it is a
handle only if it may be `loose`. -/
def readHandle (start : Mark) (loose : Bool) : Scanner String := do
  need 1
  if (← next) != '!' then refuse start "did not find expected '!'"
  else
    skip
    need 1
    let name ← takeWhile isNameChar
    if (← next) == '!' then
      skip
      pure ("!" ++ String.ofList name ++ "!")
    else if loose || name.isEmpty then pure ("!" ++ String.ofList name)
    else refuse start "did not find expected '!'"

/-- Read a tag. Between angle brackets it is complete; otherwise it has a handle, which is a single
mark unless it ends with another one. -/
def readTag : Scanner Symbol := do
  need 2
  let s ← get
  let start := s.mark
  let symbol ←
    if s.ahead 1 == '<' then
      skip
      skip
      let suffix ← readTagText start false
      if (← next) != '>' then refuse start "did not find the expected '>'"
      else
        skip
        pure (Symbol.tag "" suffix)
    else
      let handle ← readHandle start true
      let name := handle.toList.drop 1
      if name.getLast? == some '!' then
        pure (Symbol.tag handle (← readTagText start false))
      else
        let suffix := String.ofList name ++ (← readTagText start true)
        pure (if suffix.toList.isEmpty then Symbol.tag "" "!" else Symbol.tag "!" suffix)
  need 1
  if endsWord (← next) then pure symbol
  else refuse start "did not find expected whitespace or line break"

/-! ## Directives -/

/-- Read a part of a version: at most two digits. -/
def readVersionNumber (start : Mark) : Scanner Nat := do
  need 1
  let first ← next
  if Numeral.isDecimalDigit first then
    skip
    need 1
    let second ← next
    if Numeral.isDecimalDigit second then
      skip
      need 1
      if Numeral.isDecimalDigit (← next) then refuse start "found extremely long version number"
      else pure (Numeral.digitsValue 10 [first, second])
    else pure (Numeral.digitValue first)
  else refuse start "did not find expected version number"

/-- Read a version. -/
def readVersion (start : Mark) : Scanner Symbol := do
  skipWhile isBlank
  let major ← readVersionNumber start
  if (← next) != '.' then refuse start "did not find expected digit or '.' character"
  else
    skip
    return .version major (← readVersionNumber start)

/-- Read a handle of tags and what it stands for. -/
def readTagHandle (start : Mark) : Scanner Symbol := do
  skipWhile isBlank
  let handle ← readHandle start false
  need 1
  if !isBlank (← next) then refuse start "did not find expected whitespace"
  else
    skipWhile isBlank
    let text ← readTagText start false
    need 1
    if endsWord (← next) then pure (.tagHandle handle text)
    else refuse start "did not find expected whitespace or line break"

/-- Read a directive. -/
def readDirective : Scanner Symbol := do
  let start := (← get).mark
  skip
  need 1
  let name ← takeWhile isNameChar
  let behind ← next
  if name.isEmpty then refuse start "could not find expected directive name"
  else if !endsWord behind then refuse start "found unexpected non-alphabetical character"
  else
    let symbol ←
      if name = ['Y', 'A', 'M', 'L'] then readVersion start
      else if name = ['T', 'A', 'G'] then readTagHandle start
      else refuse start "found unknown directive name"
    need 1
    skipWhile isBlank
    if (← next) == '#' then skipWhile (fun c => !endsLine c)
    if endsLine (← next) then
      passBreak
      pure symbol
    else refuse start "did not find expected comment or line break"

/-! ## Indentation -/

/-- The most collections that may stand inside each other. -/
def depthLimit : Nat := 10000

/-- The problem of too many collections inside each other. -/
def tooDeep : String :=
  "exceeded max depth of " ++ toString depthLimit

/-- Where a block collection of an indentation ends: at the first of the comments before `found`
that has its indentation, if they follow each other without a gap. The comments are given last one
first. -/
def blockEndMark (indent : Int) : (stop : Int) → (found : Mark) → List Comment → Mark
  | _, found, [] => found
  | stop, found, c :: before =>
    if c.stop < stop then found
    else
      blockEndMark indent c.searched
        (if (c.start.column : Int) = indent + 1 then c.start else found) before

/-- End the block collections that are indented more than a column. -/
def closeBlocks (column : Int) : (fuel : Nat) → Mark → Scan → Scan
  | 0, _, s => s
  | fuel + 1, mark, s =>
    if s.inFlow || decide (s.indent ≤ column) then s
    else
      match s.outer with
      | [] => s
      | indent :: outer =>
        let mark := blockEndMark s.indent mark.index mark s.comments.reverse
        closeBlocks column fuel mark { s.push .blockEnd mark with indent := indent, outer := outer }

/-- End the block collections that are indented more than a column; `began` is where the search for
the symbol began. -/
def unroll (column : Int) (began : Mark) : Scanner Unit :=
  modify (fun s => closeBlocks column s.outer.length { began with index := began.index - 1 } s)

/-- Begin a block collection if the column is further right than the innermost one. The symbol goes
in front of those from `place` on. -/
def roll (place : Nat) (symbol : Symbol) (mark : Mark) : Scanner Unit := do
  let s ← get
  if !s.inFlow && decide (s.indent < mark.column) then
    set { s with indent := mark.column, outer := s.indent :: s.outer }
    if depthLimit ≤ s.outer.length then
      refuse ((s.keys.back?.map (·.mark)).getD mark) tooDeep
    else modify (·.insertAt place symbol mark)

/-! ## Keys -/

/-- A key stays on its line, and its colon comes within this many characters. -/
def keyLength : Nat := 1024

/-- The problem of a key without a colon. -/
def noColon : String := "could not find expected ':'"

/-- Whether a key may still have begun at a place. That a required one has not is an error. -/
def isOpen (level : Nat) : Scanner Bool := do
  let s ← get
  match s.keys[level]? with
  | none => pure false
  | some k =>
    if !k.possible then pure false
    else if k.mark.line < s.mark.line ∨ k.mark.index + keyLength < s.mark.index then
      if k.required then refuse k.mark noColon
      else
        set { s with keys := s.keys.setIfInBounds level { k with possible := false } }
        pure false
    else pure true

/-- A search that no longer waits for the key that may begin with a symbol. -/
def stopWaiting (place : Nat) (s : Scan) : Scan :=
  { s with waiting := s.waiting.filter (·.1 != place) }

/-- Rule out the key that may have begun in the innermost collection. -/
def closeKey (s : Scan) : Scan :=
  let level := s.keys.size - 1
  match s.keys[level]? with
  | none => s
  | some k =>
    stopWaiting k.place
      { s with keys := s.keys.setIfInBounds level { k with possible := false } }

/-- Forget the place where a key may have begun. -/
def dropKey : Scanner Unit := do
  let s ← get
  match s.keys.back? with
  | none => pure ()
  | some k =>
    if k.possible then
      if k.required then refuse k.mark noColon else modify closeKey

/-- Remember that a key may begin here. -/
def saveKey : Scanner Unit := do
  let s ← get
  if s.keyAllowed then
    let required := !s.inFlow && decide (s.indent = s.mark.column)
    let k : KeyStart := ⟨true, required, s.symbols.size, s.mark⟩
    dropKey
    modify (fun s =>
      let level := s.keys.size - 1
      { s with
        keys := s.keys.setIfInBounds level k
        waiting := (k.place, level) ::
          s.waiting.filter (fun w => w.1 != k.place && s.taken ≤ w.1) })

/-! ## Kinds of symbols -/

/-- Say whether a key may begin behind what has been read. -/
def allowKey (allowed : Bool) : Scanner Unit :=
  modify (fun s => { s with keyAllowed := allowed })

/-- Take a mark of `n` characters. -/
def takeMark (symbol : Symbol) (n : Nat) : Scanner Unit := do
  let start := (← get).mark
  (List.range n).forM (fun _ => skip)
  modify (·.push symbol start)

/-- Take a mark that opens a flow collection. -/
def openFlow (symbol : Symbol) : Scanner Unit := do
  saveKey
  modify (fun s => { s with keys := s.keys.push ⟨false, false, s.symbols.size, s.mark⟩ })
  let s ← get
  if depthLimit + 1 < s.keys.size then refuse s.mark tooDeep
  else
    allowKey true
    takeMark symbol 1

/-- Take a mark that closes a flow collection. -/
def closeFlow (symbol : Symbol) : Scanner Unit := do
  dropKey
  modify (fun s =>
    if s.inFlow then
      let place := (s.keys.back?.map (·.place)).getD 0
      stopWaiting place { s with keys := s.keys.pop }
    else s)
  allowKey false
  takeMark symbol 1

/-- Take a comma. -/
def comma : Scanner Unit := do
  dropKey
  allowKey true
  takeMark .comma 1

/-- Take the dash of an entry of a block sequence. -/
def entry : Scanner Unit := do
  let s ← get
  if !s.inFlow && !s.keyAllowed then
    refuse s.mark "block sequence entries are not allowed in this context"
  else
    roll s.symbols.size .sequenceStart s.mark
    dropKey
    allowKey true
    takeMark .entry 1

/-- Take the question mark of a key that is written out. -/
def explicitKey : Scanner Unit := do
  let s ← get
  if !s.inFlow && !s.keyAllowed then
    refuse s.mark "mapping keys are not allowed in this context"
  else
    roll s.symbols.size .mappingStart s.mark
    dropKey
    allowKey (!s.inFlow)
    takeMark .key 1

/-- Take the colon in front of a value. If a key may have begun on the line, it has. -/
def colon : Scanner Unit := do
  let s ← get
  let found ← isOpen (s.keys.size - 1)
  match found, s.keys.back? with
  | true, some k =>
    modify (·.insertAt k.place .key k.mark)
    roll k.place .mappingStart k.mark
    modify closeKey
    allowKey false
  | _, _ =>
    if !s.inFlow && !s.keyAllowed then
      refuse s.mark "mapping values are not allowed in this context"
    else
      roll s.symbols.size .mappingStart s.mark
      allowKey (!s.inFlow)
  takeMark .value 1

/-- Take the symbol that `read` finds, with which a key may begin. -/
def keyed (read : Scanner Symbol) : Scanner Unit := do
  saveKey
  allowKey false
  let start := (← get).mark
  let symbol ← read
  modify (·.push symbol start)

/-- Take a block of lines. -/
def block (folded : Bool) : Scanner Unit := do
  dropKey
  allowKey true
  let start := (← get).mark
  let text ← readBlock folded
  modify (·.push (.scalar text true) start)

/-- Get ready for what stands between documents. -/
def leaveDocument : Scanner Unit := do
  unroll (-1) (← get).mark
  dropKey
  allowKey false

/-- Take a mark between documents. -/
def documentMark (symbol : Symbol) : Scanner Unit := do
  leaveDocument
  takeMark symbol 3

/-- Take a directive. -/
def directive : Scanner Unit := do
  leaveDocument
  let start := (← get).mark
  let symbol ← readDirective
  modify (·.push symbol start)

/-- Take the end of the text. The last line counts as ended. -/
def finish : Scanner Unit := do
  modify (fun s =>
    if s.mark.column = 0 then s
    else { s with mark := { s.mark with line := s.mark.line + 1, column := 0 } })
  leaveDocument
  takeMark .streamEnd 0

/-- Whether a plain scalar can start with a character, in front of another one. -/
def startsPlain (inFlow : Bool) (c following : Char) : Bool :=
  let reserved := "-?:,[]\x7b\x7d#&*!|>'\"%@\x60".toList
  !(endsWord c || reserved.contains c) || (c == '-' && !isBlank following) ||
    (!inFlow && (c == '?' || c == ':') && !endsWord following)

/-- Take the symbol that starts here, inside a document. -/
def content : Scanner Unit := do
  let s ← get
  let c := s.ahead 0
  let free := endsWord (s.ahead 1)
  if c == '[' then openFlow .openSequence
  else if c == '\x7b' then openFlow .openMapping
  else if c == ']' then closeFlow .closeSequence
  else if c == '\x7d' then closeFlow .closeMapping
  else if c == ',' then comma
  else if c == '-' && free then entry
  else if c == '?' && (s.inFlow || free) then explicitKey
  else if c == ':' && (s.inFlow || free) then colon
  else if c == '*' then keyed (return .alias (← readAnchor))
  else if c == '&' then keyed (return .anchor (← readAnchor))
  else if c == '!' then keyed readTag
  else if (c == '|' || c == '>') && !s.inFlow then block (c == '>')
  else if c == '\x27' || c == '\x22' then keyed (return .scalar (← readQuoted c) true)
  else if startsPlain s.inFlow c (s.ahead 1) then keyed (return .scalar (← readPlain) false)
  else refuse s.mark "found character that cannot start any token"

/-- Take the symbol that starts here. A comment behind it belongs to it, or to the symbol before if
that is what it separates from the next; one behind the dash of an entry belongs to neither. -/
def symbolHere : Scanner Unit := do
  let s ← get
  let c := s.ahead 0
  if c == beyond then finish
  else if s.mark.column == 0 && c == '%' then directive
  else if s.atDocumentMark '-' then documentMark .documentStart
  else if s.atDocumentMark '.' then documentMark .documentEnd
  else
    let divides := if s.inFlow then c == ',' else c == ':'
    let owner := if divides then (s.symbols.back?.map (·.mark)).getD s.mark else s.mark
    content
    if (← get).symbols.back?.all (·.symbol ≠ .entry) then readTrailing owner.index

/-! ## The way to the next symbol -/

/-- A comment behind the dash that begins a sequence stands in front of what follows, if anything
does on this line. -/
def raiseTrailing (s : Scan) : Scan :=
  match s.comments.reverse, s.symbols[s.symbols.size - 2]?, s.symbols.back? with
  | c :: before, some ⟨.sequenceStart, _⟩, some ⟨.entry, _⟩ =>
    if c.trailing.isEmpty || isBreak (s.ahead 0) then s
    else
      let owner := if c.start.line + 1 = s.mark.line then s.mark.index else c.owner
      let raised := { c with head := c.trailing, trailing := [], owner := owner }
      { s with comments := (raised :: before).reverse }
  | _, _, _ => s

/-- Step past blanks, comments and line ends, in a search that began at `began`. A tab does not count
as a blank where a key may begin, and a mark of the encoding only at the start of a line. -/
def skipToSymbol (began : Mark) : (fuel : Nat) → Scanner Unit
  | 0 => pure ()
  | fuel + 1 => do
    need 1
    let s ← get
    if s.mark.column == 0 && s.input.marked then skip
    need 1
    skipWhile (fun c => c == ' ' || (c == '\t' && (s.inFlow || !s.keyAllowed)))
    modify raiseTrailing
    if (← next) == '#' then readComments began
    if isBreak (← next) then
      need 2
      skipBreak
      modify (fun s => { s with keyAllowed := s.keyAllowed || !s.inFlow })
      skipToSymbol began fuel

/-- Find the next symbol. -/
def advance : Scanner Unit := do
  need 1
  let s ← get
  skipToSymbol s.mark s.bound
  unroll (← get).mark.column s.mark
  need 4
  symbolHere

/-- The number of symbols that are looked at behind one before it is taken. -/
def lookahead : Nat := 2

/-- Look for symbols until the next one can be taken. -/
def settle : (fuel : Nat) → Scanner Unit
  | 0 => pure ()
  | fuel + 1 => do
    let s ← get
    if s.symbols.size ≤ s.taken + lookahead then
      advance
      settle fuel
    else
      match s.waiting.lookup s.taken with
      | none => pure ()
      | some level =>
        if ← isOpen level then
          advance
          settle fuel

/-- The next symbol. -/
def peek : Scanner Placed := do
  settle (4 * (← get).bound)
  let s ← get
  pure (s.symbols[s.taken]?.getD ⟨.streamEnd, s.mark⟩)

/-- Take the next symbol. -/
def take : Scanner Unit :=
  modify (fun s => { s with taken := s.taken + 1 })

end ReversePolish.Yaml.Scanner
