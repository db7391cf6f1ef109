import ReversePolish.Number.Numeral
import ReversePolish.Yaml.Comment

/-!
The text of scalars.

A scalar is plain, quoted, or a block of lines. White space inside plain and quoted scalars is
folded: blanks on a line stay, a single line end is a space, and of several line ends the first is
dropped. The separators of lines and paragraphs are never folded.
-/

namespace ReversePolish.Yaml

/-! ## White space -/

/-- White space inside a scalar: blanks on a line, or line ends. -/
inductive Gap where
  | none
  | blanks (text : List Char)
  /-- A line end and further ones; there is no first one if it was written to be ignored. -/
  | breaks (first : Option Char) (further : List Char)

/-- What white space inside a scalar means. -/
def Gap.text : Gap → List Char
  | .none => []
  | .blanks text => text
  | .breaks (some '\n') [] => [' ']
  | .breaks (some '\n') further => further
  | .breaks first further => first.toList ++ further

/-- Whether the white space goes beyond the line. -/
def Gap.endsLine : Gap → Bool
  | .none | .blanks _ => false
  | .breaks .. => true

/-- The white space with one more blank. -/
def Gap.addBlank (c : Char) : Gap → Gap
  | .none => .blanks [c]
  | .blanks text => .blanks (text ++ [c])
  | gap => gap

/-- The white space with one more line end. -/
def Gap.addBreak (c : Char) : Gap → Gap
  | .none | .blanks _ => .breaks (some (breakChar c)) []
  | .breaks first further => .breaks first (further ++ [breakChar c])

namespace Scanner

/-- Read white space. On a new line, a tab to the left of column `tabsFrom` is refused. -/
def readGap (tabsFrom : Int) (start : Mark) : (fuel : Nat) → Gap → Scanner Gap
  | 0, gap => pure gap
  | fuel + 1, gap => do
    let s ← get
    let c := s.ahead 0
    if isBlank c then
      if gap.endsLine && decide (s.mark.column < tabsFrom) && c == '\t' then
        refuse start "found a tab character that violates indentation"
      else
        skip
        need 1
        readGap tabsFrom start fuel (gap.addBlank c)
    else if isBreak c then
      need 2
      skipBreak
      need 1
      readGap tabsFrom start fuel (gap.addBreak c)
    else pure gap

/-! ## Plain scalars -/

/-- The characters that end a plain scalar between brackets. -/
def endsPlainInFlow (c : Char) : Bool :=
  c == ',' || c == '?' || c == '[' || c == ']' || c == '\x7b' || c == '\x7d'

/-- Read the part of a plain scalar that stands on one line, behind white space. The text is held
last character first; white space with nothing behind it is left over. -/
def readPlainRun : (fuel : Nat) → Gap → List Char → Scanner (Gap × List Char)
  | 0, gap, sofar => pure (gap, sofar)
  | fuel + 1, gap, sofar => do
    let s ← get
    let c := s.ahead 0
    if endsWord c || (c == ':' && endsWord (s.ahead 1)) || (s.inFlow && endsPlainInFlow c) then
      pure (gap, sofar)
    else
      skip
      need 2
      readPlainRun fuel .none (c :: (gap.text.reverse ++ sofar))

/-- Read a plain scalar that goes on after the text read so far, over lines that are indented by at
least `indent`. -/
def readPlainLines (indent : Int) (start : Mark) :
    (fuel : Nat) → Gap → List Char → Scanner (Gap × List Char)
  | 0, gap, sofar => pure (gap, sofar)
  | fuel + 1, gap, sofar => do
    need 4
    let s ← get
    if s.atSomeDocumentMark || s.ahead 0 == '#' then pure (gap, sofar)
    else
      let (gap, sofar) ← readPlainRun s.bound gap sofar
      let c ← next
      if isBlank c || isBreak c then
        need 1
        let gap ← readGap indent start s.bound gap
        let s ← get
        if !s.inFlow && decide (s.mark.column < indent) then pure (gap, sofar)
        else readPlainLines indent start fuel gap sofar
      else pure (gap, sofar)

/-- Read a plain scalar; a key may begin behind it if it ended at the start of a line. -/
def readPlain : Scanner String := do
  let s ← get
  let (gap, text) ← readPlainLines (s.indent + 1) s.mark s.bound .none []
  if gap.endsLine then modify (fun s => { s with keyAllowed := true })
  pure (String.ofList text.reverse)

/-! ## Quoted scalars -/

/-- The character that a letter stands for behind a backslash. -/
def escaped? (c : Char) : Option Char :=
  match c with
  | '0' => some '\x00'
  | 'a' => some '\x07'
  | 'b' => some '\x08'
  | 't' | '\t' => some '\t'
  | 'n' => some '\n'
  | 'v' => some '\x0b'
  | 'f' => some '\x0c'
  | 'r' => some '\r'
  | 'e' => some '\x1b'
  | ' ' => some ' '
  | '\x22' => some '\x22'
  | '\x27' => some '\x27'
  | '\\' => some '\\'
  | 'N' => some (Char.ofNat 0x85)
  | '_' => some (Char.ofNat 0xa0)
  | 'L' => some (Char.ofNat 0x2028)
  | 'P' => some (Char.ofNat 0x2029)
  | _ => none

/-- The number of hexadecimal digits that a letter takes behind a backslash. -/
def hexLength? : Char → Option Nat
  | 'x' => some 2
  | 'u' => some 4
  | 'U' => some 8
  | _ => none

/-- Read the code point of a character in `n` hexadecimal digits. -/
def readCode (start : Mark) (n : Nat) : Scanner Char := do
  need n
  let s ← get
  let digits := (List.range n).map s.ahead
  if digits.all Numeral.isHexDigit then
    let code := Numeral.digitsValue 16 digits
    if (0xd800 ≤ code ∧ code < 0xe000) ∨ 0x10ffff < code then
      refuse start "found invalid Unicode character escape code"
    else
      digits.forM (fun _ => skip)
      pure (Char.ofNat code)
  else refuse start "did not find expected hexdecimal number"

/-- Read a backslash and what stands behind it. -/
def readEscape (start : Mark) : Scanner Char := do
  let letter := (← get).ahead 1
  match escaped? letter, hexLength? letter with
  | some c, _ =>
    skip
    skip
    pure c
  | none, some n =>
    skip
    skip
    readCode start n
  | none, none => refuse start "found unknown escape character"

/-- Read the characters of a quoted scalar up to white space, or up to its closing mark. Whether
they end with a line end that was written to be ignored comes first; the text is held last character
first. -/
def readQuotedRun (mark : Char) (start : Mark) :
    (fuel : Nat) → List Char → Scanner (Bool × List Char)
  | 0, sofar => pure (false, sofar)
  | fuel + 1, sofar => do
    let s ← get
    let c := s.ahead 0
    if endsWord c then pure (false, sofar)
    else if c == mark && !(mark == '\x27' && s.ahead 1 == mark) then pure (false, sofar)
    else if mark == '\x22' && c == '\\' && isBreak (s.ahead 1) then
      need 3
      skip
      skipBreak
      pure (true, sofar)
    else
      let d ←
        if c == mark then
          skip
          skip
          pure c
        else if mark == '\x22' && c == '\\' then readEscape start
        else
          skip
          pure c
      need 2
      readQuotedRun mark start fuel (d :: sofar)

/-- Read a scalar up to its closing mark; what was read before is held last character first. -/
def readQuotedLines (mark : Char) (start : Mark) : (fuel : Nat) → List Char → Scanner (List Char)
  | 0, sofar => pure sofar.reverse
  | fuel + 1, sofar => do
    need 4
    let s ← get
    if s.atSomeDocumentMark then refuse start "found unexpected document indicator"
    else if s.ahead 0 == beyond then refuse start "found unexpected end of stream"
    else
      let (ignored, sofar) ← readQuotedRun mark start s.bound sofar
      need 1
      if (← next) == mark then
        skip
        pure sofar.reverse
      else
        let gap ← readGap 0 start s.bound (if ignored then .breaks none [] else .none)
        readQuotedLines mark start fuel (gap.text.reverse ++ sofar)

/-- Read a quoted scalar. -/
def readQuoted (mark : Char) : Scanner String := do
  let s ← get
  skip
  return String.ofList (← readQuotedLines mark s.mark s.bound [])

/-! ## Blocks of lines -/

/-- What becomes of the line ends behind the last line of a block. -/
inductive Chomping where
  /-- All are dropped. -/
  | strip
  /-- The first one stays. -/
  | clip
  /-- All stay. -/
  | keep
  deriving DecidableEq

/-- The chomping that a mark stands for. -/
def chomping? : Char → Option Chomping
  | '+' => some .keep
  | '-' => some .strip
  | _ => none

/-- Read a chomping, if one is given. -/
def readChomping : Scanner (Option Chomping) := do
  match chomping? (← next) with
  | some chomping =>
    skip
    need 1
    pure (some chomping)
  | none => pure none

/-- Read an indentation, if one is given. -/
def readIncrement (start : Mark) : Scanner (Option Nat) := do
  let c ← next
  if c == '0' then refuse start "found an indentation indicator equal to 0"
  else if Numeral.isDecimalDigit c then
    skip
    need 1
    pure (some (Numeral.digitValue c))
  else pure none

/-- Read the first line of a block behind its mark: the indentation of the lines beyond that of the
block around it, and the chomping, in any order and if they are given, and perhaps a comment. -/
def readBlockHeader (start : Mark) : Scanner (Option Nat × Chomping) := do
  need 1
  let first ← readChomping
  let increment ← readIncrement start
  let second ← if first.isNone && increment.isSome then readChomping else pure none
  skipWhile isBlank
  if (← next) == '#' then
    readTrailing start.index
    skipWhile (fun c => !endsLine c)
  if !endsLine (← next) then refuse start "did not find expected comment or line break"
  else
    passBreak
    pure (increment, (first.or second).getD .clip)

/-- Step past the blanks of an indentation. -/
def skipIndentation (indent : Option Nat) : (fuel : Nat) → Scanner Unit
  | 0 => pure ()
  | fuel + 1 => do
    let s ← get
    if s.ahead 0 == ' ' && indent.all (s.mark.column < ·) then
      skip
      need 1
      skipIndentation indent fuel

/-- Step past indentation and empty lines. The indentation of the lines is `indent` if that is known.
The line ends and the greatest column reached are the result. -/
def readIndentation (indent : Option Nat) (start : Mark) :
    (fuel : Nat) → (breaks : List Char) → (widest : Nat) → Scanner (List Char × Nat)
  | 0, breaks, widest => pure (breaks, widest)
  | fuel + 1, breaks, widest => do
    need 1
    skipIndentation indent (← get).bound
    let s ← get
    let c := s.ahead 0
    let widest := max widest s.mark.column
    if c == '\t' && indent.all (s.mark.column < ·) then
      refuse start "found a tab character where an indentation space is expected"
    else if isBreak c then
      need 2
      skipBreak
      readIndentation indent start fuel (breaks ++ [breakChar c]) widest
    else pure (breaks, widest)

/-- The lines of a block that have been read. -/
structure Block where
  /-- The text, last character first. -/
  text : List Char := []
  /-- The end of the last line. -/
  lineEnd : List Char := []
  /-- The ends of the empty lines behind it. -/
  emptyEnds : List Char
  /-- Whether the last line began with a blank. -/
  blankStart : Bool := false

/-- Read the lines of a block that are indented by `indent`. -/
def readBlockLines (folded : Bool) (indent : Nat) (start : Mark) :
    (fuel : Nat) → Block → Scanner Block
  | 0, b => pure b
  | fuel + 1, b => do
    let s ← get
    let c := s.ahead 0
    if s.mark.column ≠ indent ∨ c = beyond then pure b
    else
      let blank := isBlank c
      let ending :=
        if folded && !b.blankStart && !blank && b.lineEnd == ['\n'] then
          if b.emptyEnds.isEmpty then [' '] else []
        else b.lineEnd
      let line ← takeWhile (fun d => !isBreak d)
      need 2
      let d ← next
      skipBreak
      let (emptyEnds, _) ← readIndentation (some indent) start s.bound [] 0
      readBlockLines folded indent start fuel
        { text := line.reverse ++ b.emptyEnds.reverse ++ ending.reverse ++ b.text
          lineEnd := if isBreak d then [breakChar d] else []
          emptyEnds := emptyEnds
          blankStart := blank }

/-- Read a block. -/
def readBlock (folded : Bool) : Scanner String := do
  let s ← get
  let start := s.mark
  skip
  let (increment, chomping) ← readBlockHeader start
  let given := increment.map (fun n => (max 0 s.indent).toNat + n)
  let (emptyEnds, widest) ← readIndentation given start s.bound [] 0
  let indent := given.getD (max 1 (max widest (s.indent + 1).toNat))
  need 1
  let b ← readBlockLines folded indent start s.bound { emptyEnds := emptyEnds }
  let tail :=
    match chomping with
    | .strip => []
    | .clip => b.lineEnd
    | .keep => b.lineEnd ++ b.emptyEnds
  return String.ofList (b.text.reverse ++ tail)

end Scanner

end ReversePolish.Yaml
