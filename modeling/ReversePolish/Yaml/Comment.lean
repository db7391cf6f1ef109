import ReversePolish.Yaml.Scan

/-!
Comments of a YAML document.

Comments mean nothing to a configuration, but where they are looked for decides how far the text is
looked at, and comments in front of an entry decide how far ahead symbols are looked for. A comment
is found at the end of a line of content, or on lines of its own together with those that follow it.
The search looks ahead a limited number of characters, and does not fail if it cannot.
-/

namespace ReversePolish.Yaml.Scanner

/-- The number of characters that are looked through for a comment. -/
def commentReach : Nat := 512

/-- Read a comment that starts at a position, going past all that stands before it, up to the end of
its line. The text read before is held last character first. -/
def readComment (start : Int) : (fuel : Nat) → List Char → Scanner (List Char)
  | 0, text => pure text
  | fuel + 1, text => do
    need 1
    let s ← get
    let c := s.ahead 0
    if endsLine c then
      if start ≤ s.mark.index then pure text
      else
        need 2
        skipBreak
        readComment start fuel text
    else
      skip
      readComment start fuel (if start ≤ s.mark.index then c :: text else text)

/-! ## At the end of a line -/

/-- The number of blanks in front of a comment, if one is found from `peek` characters ahead on. -/
def findTrailing : (fuel : Nat) → (peek : Nat) → Scanner (Option Nat)
  | 0, _ => pure none
  | fuel + 1, peek => do
    if ← canHave (peek + 1) then
      let c := (← get).ahead peek
      if isBlank c then findTrailing fuel (peek + 1)
      else pure (if c == '#' then some peek else none)
    else pure none

/-- Read a comment at the end of a line, if there is one; it belongs to the symbol at `owner`. -/
def readTrailing (owner : Int) : Scanner Unit := do
  if (← get).newlines = 0 then
    match ← findTrailing commentReach 0 with
    | none => pure ()
    | some blanks =>
      let s ← get
      let mark := { s.mark with index := s.mark.index + blanks, column := s.mark.column + blanks }
      let text ← readComment mark.index (2 * s.bound) []
      modify (fun s =>
        { s with comments := s.comments ++ [⟨0, owner, mark, 0, [], text.reverse⟩] })

/-! ## On lines of their own -/

/-- What is known while comments on lines of their own are looked for. -/
structure Search where
  /-- Where the search began, or the last comment that was complete ended. -/
  searched : Int
  /-- Where the symbol stands that comments before an empty line belong to. -/
  owner : Int
  /-- Whether that symbol is the colon in front of a value. -/
  afterColon : Bool
  /-- The line on which a comment belongs to what stands before it. -/
  footLine : Option Nat
  /-- Where the comment starts; its column counts from one. -/
  start : Mark
  /-- The comment so far, last character first. -/
  text : List Char
  /-- How far ahead of the position the search is. -/
  peek : Nat
  line : Nat
  column : Nat
  /-- Whether the search has not gone past an empty line. -/
  firstEmpty : Bool
  /-- Whether the last line was empty. -/
  recentEmpty : Bool

namespace Search

/-- Whether the comment is to the left of the content of a block. -/
def outdented (f : Search) (margin : Nat) : Bool :=
  decide (f.start.column ≤ margin)

/-- A comment that belongs to what stands before it, and the search behind it. -/
def close (f : Search) (index : Int) (margin : Nat) (atBreak : Bool) : Search × Comment :=
  let owner := if atBreak && f.outdented margin then f.start.index else f.owner
  ({ f with searched := index, owner := index, text := [] },
    ⟨f.searched, owner, f.start, index, [], []⟩)

end Search

/-- Keep a comment. -/
def keepComment (c : Comment) : Scanner Unit :=
  modify (fun s => { s with comments := s.comments ++ [c] })

/-- Keep what was found as a comment that belongs to what stands before it. -/
def closeComment (f : Search) (atBreak : Bool) : Scanner Search := do
  let (g, comment) := f.close ((← get).mark.index + f.peek) (← margin) atBreak
  keepComment comment
  pure g

/-- Continue with the search at the end of a line, or at a bracket that closes a flow collection.
Whether it goes on comes last. -/
def searchBreak (f : Search) (c : Char) (closes : Bool) : Scanner (Search × Bool) := do
  let f ←
    if closes || !f.recentEmpty then
      let isFoot := (some f.start.line == f.footLine && !f.afterColon) || f.outdented (← margin)
      if f.text.isEmpty then pure f
      else if closes || (f.firstEmpty && isFoot) then closeComment f true
      else if c == beyond then pure f
      else pure { f with text := '\n' :: f.text }
    else pure f
  if isBreak c then
    let f := { f with firstEmpty := false, recentEmpty := true, line := f.line + 1, column := 0 }
    pure (f, true)
  else pure (f, false)

/-- Continue with the search at a character that is neither blank nor a line end. Whether it goes on
comes last: it does behind the line of a further comment, where the search starts afresh behind the
first byte of the line end. -/
def searchText (f : Search) (c : Char) : Scanner (Search × Bool) := do
  let f ←
    if !f.text.isEmpty && decide (f.column ≤ (← margin)) && f.column != f.start.column then
      closeComment f false
    else pure f
  if c != '#' then pure (f, false)
  else
    let s ← get
    let here := s.mark.index + f.peek
    let f :=
      if f.text.isEmpty then { f with start := ⟨here, f.line, f.column⟩ }
      else { f with text := '\n' :: f.text }
    let text ← readComment here (2 * s.bound) f.text
    pure ({ f with
      text := text, recentEmpty := false, peek := 0, line := (← get).mark.line, column := 0 }, true)

/-- Search on, up to what is no comment. A line end of more than one byte is looked into, where
nothing is found. -/
def search : (fuel : Nat) → Search → Scanner Search
  | 0, f => pure f
  | fuel + 1, f => do
    if f.peek < commentReach then
      if ← canHave (f.peek + 1) then
        let s ← get
        let f := { f with column := f.column + 1 }
        let torn := decide (0 < f.peek) && isWideBreak (s.ahead (f.peek - 1))
        let c := if torn then Text.replacement else s.ahead f.peek
        if isBlank c then search fuel { f with peek := f.peek + 1 }
        else
          let closes := s.inFlow && (c == ']' || c == '\x7d')
          let (f, goOn) ←
            if closes || endsLine c then searchBreak f c closes else searchText f c
          if goOn then search fuel { f with peek := f.peek + 1 } else pure f
      else pure f
    else pure f

/-- The symbol that a comment on a line of its own may belong to; commas own none. -/
def commentOwner (s : Scan) : Option Placed :=
  match s.symbols.back? with
  | some ⟨.comma, mark⟩ => s.symbols[s.symbols.size - 2]?.or (some ⟨.comma, mark⟩)
  | last => last

/-- Read the comments that start here, in a search for a symbol that began at `began`. -/
def readComments (began : Mark) : Scanner Unit := do
  let s ← get
  let owner := commentOwner s
  let footLine := if began.line = 0 then none
    else some (s.mark.line + 1 - s.newlines +
      (if s.newlines = 0 ∧ 1 < s.mark.column then 1 else 0))
  let f ← search (4 * s.bound + commentReach)
    { searched := began.index
      owner := (owner.map (·.mark.index)).getD 0
      afterColon := owner.any (·.symbol = .value)
      footLine := footLine
      start := ⟨0, 0, 0⟩
      text := []
      peek := 0
      line := s.mark.line
      column := s.mark.column
      firstEmpty := decide (s.newlines ≤ 1)
      recentEmpty := false }
  if !f.text.isEmpty then
    keepComment ⟨f.searched, f.start.index, f.start, (← get).mark.index + f.peek - 1,
      f.text.reverse, []⟩

end ReversePolish.Yaml.Scanner
