import ReversePolish.Yaml.Input

/-!
The search for the symbols of a YAML document: what is known at some point of it, and the steps by
which the text is read.

A search may fail, and go on from there all the same: whether a failure ends the reading of the
document is decided by those who asked for the symbol. So a failure keeps the state that it was
noticed in, and the last one is remembered.
-/

namespace ReversePolish.Yaml

/-! ## Failures -/

/-- What is wrong with a document, where the part began that it belongs to, and where it was
noticed. Lines count from zero. -/
structure SyntaxError where
  contextLine : Nat
  line : Nat
  /-- Whether it was noticed while looking for symbols. -/
  lexical : Bool
  problem : String
  deriving DecidableEq, Repr

/-- The line that a message names, if any. A message never names the first line of a document as
such: lines count from one for symbols and from zero for structure, and zero is left out. -/
def SyntaxError.lineShown? (e : SyntaxError) : Option Nat :=
  let shown := if e.contextLine = 0 then e.line else e.contextLine
  if shown = 0 then none else some (if e.lexical then shown + 1 else shown)

/-- The words for a document that is wrong. -/
def SyntaxError.message (e : SyntaxError) : String :=
  match e.lineShown? with
  | some n => "line " ++ toString n ++ ": " ++ e.problem
  | none => e.problem

/-- An error that belongs to no line. -/
def SyntaxError.anywhere (problem : String) : SyntaxError :=
  ⟨0, 0, false, problem⟩

/-! ## Symbols -/

/-- A position in a document. -/
structure Mark where
  /-- Characters before it. -/
  index : Int
  line : Nat
  column : Nat
  deriving DecidableEq, Repr

/-- A symbol of a document. -/
inductive Symbol where
  | streamStart
  | version (major minor : Nat)
  /-- What a handle of tags stands for. -/
  | tagHandle (handle start : String)
  | documentStart
  | documentEnd
  | streamEnd
  | sequenceStart
  | mappingStart
  | blockEnd
  | entry
  | key
  | value
  | openSequence
  | closeSequence
  | openMapping
  | closeMapping
  | comma
  | alias (name : String)
  | anchor (name : String)
  /-- A tag: what stands between its exclamation marks with them, and what stands behind. -/
  | tag (handle suffix : String)
  | scalar (text : String) (quoted : Bool)
  deriving DecidableEq, Repr

/-- A symbol and where it starts. -/
structure Placed where
  symbol : Symbol
  mark : Mark
  deriving DecidableEq, Repr

/-- A place where a key may have begun. -/
structure KeyStart where
  /-- Whether it has not been ruled out that a key begins there. -/
  possible : Bool
  /-- Whether only a key can stand there. -/
  required : Bool
  /-- The number of symbols in front of it. -/
  place : Nat
  mark : Mark

/-- Lines of comment, and how they belong to the symbols around them. -/
structure Comment where
  /-- Where the search began that found the comment. -/
  searched : Int
  /-- Where the symbol stands that the comment belongs to. -/
  owner : Int
  start : Mark
  /-- Where the comment ends. -/
  stop : Int
  /-- The text if it stands in front of what it belongs to. -/
  head : List Char
  /-- The text if it stands at the end of a line of content. -/
  trailing : List Char

/-- What is known of a document up to some point. -/
structure Scan where
  input : Input
  mark : Mark
  /-- The number of line ends since the last character that is not blank. -/
  newlines : Nat
  /-- All symbols found. -/
  symbols : Array Placed
  /-- The number of symbols that have been taken. -/
  taken : Nat
  /-- The column of the innermost block collection, or `-1`. -/
  indent : Int
  /-- The columns of the block collections around it, innermost first. -/
  outer : List Int
  /-- Whether a key may begin here. -/
  keyAllowed : Bool
  /-- Where keys may have begun: outside all flow collections, and in each of those around. -/
  keys : Array KeyStart
  /-- The symbols with which keys may begin, and where in `keys` they are. -/
  waiting : List (Nat × Nat)
  /-- The comments whose symbols have not been taken. -/
  comments : List Comment
  /-- The last failure. -/
  trouble : Option SyntaxError
  /-- A bound for the number of rounds of every search. -/
  bound : Nat

namespace Scan

/-- Before the first symbol of a text. -/
def start (text : String) : Scan where
  input := .ofText text
  mark := ⟨0, 0, 0⟩
  newlines := 0
  symbols := #[⟨.streamStart, ⟨0, 0, 0⟩⟩]
  taken := 0
  indent := -1
  outer := []
  keyAllowed := true
  keys := #[⟨false, false, 0, ⟨0, 0, 0⟩⟩]
  waiting := []
  comments := []
  trouble := none
  bound := text.utf8ByteSize + 16

def inFlow (s : Scan) : Bool :=
  1 < s.keys.size

/-- The character `i` places ahead. -/
def ahead (s : Scan) (i : Nat) : Char :=
  s.input.ahead i

/-- Whether a mark between documents stands here. -/
def atDocumentMark (s : Scan) (c : Char) : Bool :=
  s.mark.column == 0 && s.ahead 0 == c && s.ahead 1 == c && s.ahead 2 == c && endsWord (s.ahead 3)

/-- Whether any mark between documents stands here. -/
def atSomeDocumentMark (s : Scan) : Bool :=
  s.atDocumentMark '-' || s.atDocumentMark '.'

/-- Add a symbol that starts at a position. -/
def push (s : Scan) (symbol : Symbol) (mark : Mark) : Scan :=
  { s with symbols := s.symbols.push ⟨symbol, mark⟩ }

/-- Put a symbol in front of those from `place` on, unless they have been taken already. -/
def insertAt (s : Scan) (place : Nat) (symbol : Symbol) (mark : Mark) : Scan :=
  if place < s.taken then s.push symbol mark
  else { s with symbols := s.symbols.insertIdxIfInBounds place ⟨symbol, mark⟩ }

/-- Step past a character of a line. -/
def skip (s : Scan) : Scan :=
  let newlines := if isBlank (s.ahead 0) then s.newlines else 0
  { s with
    input := s.input.drop 1
    mark := { s.mark with index := s.mark.index + 1, column := s.mark.column + 1 }
    newlines := newlines }

/-- Step past a line end, if one stands here. A carriage return and a line feed are one line end. -/
def skipBreak (s : Scan) : Scan :=
  let c := s.ahead 0
  if isBreak c then
    let n := if c == '\r' && s.ahead 1 == '\n' then 2 else 1
    { s with
      input := s.input.drop n
      mark := ⟨s.mark.index + n, s.mark.line + 1, 0⟩
      newlines := s.newlines + 1 }
  else s

end Scan

/-! ## Steps -/

/-- A step of the search. -/
abbrev Scanner := EStateM SyntaxError Scan

namespace Scanner

/-- Fail. -/
def fail {α : Type} (e : SyntaxError) : Scanner α := do
  modify (fun s => { s with trouble := some e })
  throw e

/-- Fail because of what stands here; `context` is where the part began that it belongs to. -/
def refuse {α : Type} (context : Mark) (problem : String) : Scanner α := do
  fail ⟨context.line, (← get).mark.line, true, problem⟩

/-- The failure of a text that goes on with a character that no document may hold. It names the
lines of the failure before it, if there was one. -/
def obstruction (before : Option SyntaxError) : SyntaxError :=
  { before.getD (.anywhere "") with
    lexical := false, problem := "control characters are not allowed" }

/-- Make sure that `n` characters can be read. -/
def need (n : Nat) : Scanner Unit := do
  let s ← get
  if s.input.unread < n then
    let (input, allowed) := s.input.request n
    set { s with input := input }
    if !allowed then fail (obstruction s.trouble)

/-- Make sure that `n` characters can be read; that they cannot is remembered, but no failure. -/
def canHave (n : Nat) : Scanner Bool :=
  try
    need n
    pure true
  catch _ => pure false

/-- The next character. -/
def next : Scanner Char :=
  return (← get).ahead 0

/-- Step past a character of a line. -/
def skip : Scanner Unit :=
  modify Scan.skip

/-- Step past a line end, if one stands here. -/
def skipBreak : Scanner Unit :=
  modify Scan.skipBreak

/-- Step past characters of a line as long as they satisfy a condition, and return them. -/
def takeWhile (p : Char → Bool) : Scanner (List Char) := do
  loop (← get).bound []
where
  /-- The characters read before are held last one first. -/
  loop : (fuel : Nat) → List Char → Scanner (List Char)
    | 0, sofar => pure sofar.reverse
    | fuel + 1, sofar => do
      let c ← next
      if c != beyond && p c then
        skip
        need 1
        loop fuel (c :: sofar)
      else pure sofar.reverse

/-- Step past characters of a line as long as they satisfy a condition. -/
def skipWhile (p : Char → Bool) : Scanner Unit := do
  let _ ← takeWhile p

/-- Step past a line end, which may need another character to be complete. -/
def passBreak : Scanner Unit := do
  if isBreak (← next) then
    need 2
    skipBreak

/-- The indentation of the innermost block collection, or of the margin. -/
def margin : Scanner Nat :=
  return (max 0 (← get).indent).toNat

end Scanner

end ReversePolish.Yaml
