import ReversePolish.Yaml.Scalar
import ReversePolish.Yaml.Symbol

/-!
Nodes of a YAML document: scalars, sequences and mappings, read from its symbols.

Only the first document of a text is read. A key or a value that is not written is an empty scalar.
A node may have a tag, and a name under which it can be used again, even inside itself; so such
nodes have numbers, by which the places that use them refer to them.

A failure that was noticed while looking ahead, and that did not end the search, ends the reading
once the part of the document is complete that was being read.
-/

namespace ReversePolish.Yaml

/-- A part of a document, with the line on which it starts, counted from one, and its tag. -/
inductive Node where
  | scalar (line : Nat) (tag : String) (text : String)
  | sequence (line : Nat) (tag : String) (items : List Node)
  | mapping (line : Nat) (tag : String) (entries : List (Node × Node))
  /-- A node that is used again: the number of this use, and the name and the number of the node. -/
  | alias (line : Nat) (use : Nat) (name : String) (target : Nat)

namespace Node

def line : Node → Nat
  | .scalar line .. => line
  | .sequence line .. => line
  | .mapping line .. => line
  | .alias line .. => line

/-- The node for what is not written; lines of symbols count from zero. -/
def missing (line : Nat) : Node :=
  .scalar (line + 1) Scalar.null.tag ""

end Node

/-- A document and its nodes with names, by their numbers. -/
structure Document where
  root : Node
  named : List (Nat × Node)

/-! ## Reading -/

/-- What is known while nodes are read. -/
structure Reading where
  scan : Scan
  /-- The comment in front of the next node. -/
  head : List Char
  /-- What handles of tags stand for. -/
  handles : List (String × String)
  /-- The names of nodes, and the numbers that they stand for. -/
  names : List (String × Nat)
  /-- The nodes with names that are complete. -/
  named : List (Nat × Node)
  /-- The next number. -/
  serial : Nat

/-- A step of reading. -/
abbrev NodeReader := EStateM SyntaxError Reading

namespace NodeReader

/-- A step of the search for symbols. -/
def search {α : Type} (step : Scanner α) : NodeReader α := fun r =>
  match step.run r.scan with
  | .ok a s => .ok a { r with scan := s }
  | .error e s => .error e { r with scan := s }

/-- The comments that belong to a symbol, in front of which `head` stands; the rest of the comments
comes last. No comment stands in front of the end of a block. -/
def takeComments (p : Placed) : (head : List Char) → List Comment → List Char × List Comment
  | head, [] => (head, [])
  | head, c :: rest =>
    if p.mark.index < c.owner || (!c.head.isEmpty && p.symbol = .blockEnd) then (head, c :: rest)
    else
      let head :=
        if c.head.isEmpty then head
        else if head.isEmpty then c.head
        else head ++ '\n' :: c.head
      takeComments p head rest

/-- The next symbol. -/
def peek : NodeReader Placed := do
  let p ← search Scanner.peek
  modify (fun r =>
    let (head, comments) := takeComments p r.head r.scan.comments
    { r with head := head, scan := { r.scan with comments := comments } })
  pure p

/-- Take the next symbol. -/
def take : NodeReader Unit :=
  search Scanner.take

/-- Use up the comment in front of the next node. -/
def clearHead : NodeReader Unit :=
  modify (fun r => { r with head := [] })

/-- Complete a part of the document, unless a failure was noticed on the way. -/
def complete : NodeReader Unit := do
  match (← get).scan.trouble with
  | some e => throw e
  | none => pure ()

/-- Fail because of a symbol; `context` is where the part began that it belongs to. -/
def misfit {α : Type} (context : Mark) (p : Placed) (problem : String) : NodeReader α :=
  search (Scanner.fail ⟨context.line, p.mark.line, false, problem⟩)

/-- Fail because of a symbol between documents. -/
def misplaced {α : Type} (p : Placed) (problem : String) : NodeReader α := do
  let before := ((← get).scan.trouble.map (·.contextLine)).getD 0
  search (Scanner.fail ⟨before, p.mark.line, false, problem⟩)

/-- A new number. -/
def number : NodeReader Nat := do
  let r ← get
  set { r with serial := r.serial + 1 }
  pure r.serial

/-! ## Tags and names -/

/-- What stands in front of the content of a node. -/
structure Properties where
  start : Mark
  name : Option String
  /-- The tag in its long form, or nothing. -/
  tag : String

/-- What the long form of a standard tag begins with. -/
def standardStart : String := "tag:yaml.org,2002:"

/-- The handles that every document has. -/
def standardHandles : List (String × String) :=
  [("!", "!"), ("!!", standardStart)]

/-- The short form of a tag. -/
def shortTag (tag : String) : String :=
  let start := standardStart.toList
  if start.isPrefixOf tag.toList then "!!" ++ String.ofList (tag.toList.drop start.length) else tag

/-- The tag of a node; a mark on its own is none, and stands for the usual one. -/
def Properties.tagOr (p : Properties) (usual : String) : String :=
  if p.tag = "" ∨ p.tag = "!" then usual else shortTag p.tag

/-- The tag of a scalar. -/
def Properties.scalarTag (p : Properties) (text : String) (quoted : Bool) : String :=
  p.tagOr <|
    if quoted then "!!str"
    else if text = "<<" then "!!merge"
    else (Scalar.ofText true text).tag

/-- Read a name and a tag, in any order. What the handle of the tag stands for is looked up once the
symbol behind them is known. -/
def readProperties : NodeReader Properties := do
  let p ← peek
  let (name, tag) : Option String × Option (String × String × Placed) ←
    match p.symbol with
    | .anchor name => do
      take
      let q ← peek
      match q.symbol with
      | .tag handle suffix =>
        take
        let _ ← peek
        pure (some name, some (handle, suffix, q))
      | _ => pure (some name, none)
    | .tag handle suffix => do
      take
      let q ← peek
      match q.symbol with
      | .anchor name =>
        take
        let _ ← peek
        pure (some name, some (handle, suffix, p))
      | _ => pure (none, some (handle, suffix, p))
    | _ => pure (none, none)
  match tag with
  | none => pure ⟨p.mark, name, ""⟩
  | some ("", suffix, _) => pure ⟨p.mark, name, suffix⟩
  | some (handle, suffix, q) =>
    match (← get).handles.lookup handle with
    | some start => pure ⟨p.mark, name, start ++ suffix⟩
    | none => misfit p.mark q "found undefined tag handle"

/-- Give a node its name before its content is read. -/
def beginNode (p : Properties) : NodeReader (Option Nat) := do
  match p.name with
  | none => pure none
  | some name =>
    let n ← number
    modify (fun r => { r with names := (name, n) :: r.names })
    pure (some n)

/-- Keep a node that has a name. -/
def endNode (id : Option Nat) (n : Node) : NodeReader Node := do
  match id with
  | none => pure n
  | some id =>
    modify (fun r => { r with named := (id, n) :: r.named })
    pure n

/-- A scalar. -/
def scalarNode (p : Properties) (text : String) (quoted : Bool) : NodeReader Node := do
  complete
  let id ← beginNode p
  endNode id (.scalar (p.start.line + 1) (p.scalarTag text quoted) text)

/-- The node for what is not written. -/
def missing (mark : Mark) : NodeReader Node := do
  complete
  pure (.missing mark.line)

/-! ## Structure -/

/-- Whether a symbol leaves out the node that could stand in its place in a block mapping. -/
def endsBlockNode : Symbol → Bool
  | .key | .value | .blockEnd => true
  | _ => false

/-- Step past the dash of an entry. If a comment stood in front of it, the next symbol is looked at; a
failure then is left to those who need the symbol. The comment belongs to the collection that begins
there, if one does. -/
def passEntry : NodeReader Unit := do
  let stem := (← get).head.length
  take
  if stem ≠ 0 then
    try
      let q ← peek
      if q.symbol = .sequenceStart ∨ q.symbol = .mappingStart then
        modify (fun r => { r with head := r.head.drop (stem + 1) })
    catch _ => pure ()

/-- Continue in a flow collection that was opened at `start`: in front of the first part, at its end,
or behind a comma. -/
def nextFlow (close : Symbol) (problem : String) (start : Mark) (first : Bool) :
    NodeReader Placed := do
  let p ← peek
  if first || p.symbol = close then pure p
  else if p.symbol = .comma then
    take
    peek
  else misfit start p problem

/-- Step past the mark that closes a flow collection. -/
def closeFlow : NodeReader Unit := do
  clearHead
  take
  complete

mutual

/-- Read a node; `block` tells whether it may be a block collection, and `flat` whether it may be a
block sequence that is not indented. -/
def readNode (block flat : Bool) : (fuel : Nat) → NodeReader Node
  | 0 => do misfit ⟨0, 0, 0⟩ (← peek) "did not find expected node content"
  | fuel + 1 => do
    let p ← peek
    match p.symbol with
    | .alias name =>
      clearHead
      take
      complete
      match (← get).names.lookup name with
      | some target => pure (.alias (p.mark.line + 1) (← number) name target)
      | none => throw (.anywhere ("unknown anchor '" ++ name ++ "' referenced"))
    | _ =>
      let props ← readProperties
      let line := props.start.line + 1
      let q ← peek
      match q.symbol with
      | .scalar text quoted =>
        clearHead
        take
        scalarNode props text quoted
      | .openSequence =>
        clearHead
        complete
        let id ← beginNode props
        take
        let items ← readFlowItems q.mark fuel []
        endNode id (.sequence line (props.tagOr "!!seq") items)
      | .openMapping =>
        clearHead
        complete
        let id ← beginNode props
        take
        let entries ← readFlowEntries q.mark fuel []
        endNode id (.mapping line (props.tagOr "!!map") entries)
      | symbol =>
        if flat && symbol = .entry then
          complete
          let id ← beginNode props
          let items ← readFlatItems fuel []
          endNode id (.sequence line (props.tagOr "!!seq") items)
        else if block && symbol = .sequenceStart then
          complete
          let id ← beginNode props
          take
          let items ← readItems q.mark fuel []
          endNode id (.sequence line (props.tagOr "!!seq") items)
        else if block && symbol = .mappingStart then
          complete
          let id ← beginNode props
          take
          let entries ← readEntries q.mark fuel []
          endNode id (.mapping line (props.tagOr "!!map") entries)
        else if props.name.isSome || props.tag ≠ "" then scalarNode props "" false
        else misfit props.start q "did not find expected node content"
termination_by structural fuel => fuel

/-- Read the items of an indented block sequence that began at `start`; those read before are held
last one first. -/
def readItems (start : Mark) : (fuel : Nat) → List Node → NodeReader (List Node)
  | 0, _ => do misfit start (← peek) "did not find expected '-' indicator"
  | fuel + 1, items => do
    let p ← peek
    match p.symbol with
    | .entry =>
      passEntry
      let q ← peek
      let item ←
        if q.symbol = .entry ∨ q.symbol = .blockEnd then missing p.mark
        else readNode true false fuel
      readItems start fuel (item :: items)
    | .blockEnd =>
      take
      complete
      pure items.reverse
    | _ => misfit start p "did not find expected '-' indicator"
termination_by structural fuel => fuel

/-- Read the items of a block sequence that is not indented. -/
def readFlatItems : (fuel : Nat) → List Node → NodeReader (List Node)
  | 0, items => pure items.reverse
  | fuel + 1, items => do
    let p ← peek
    match p.symbol with
    | .entry =>
      passEntry
      let q ← peek
      let item ←
        if q.symbol = .entry ∨ endsBlockNode q.symbol then missing p.mark
        else readNode true false fuel
      readFlatItems fuel (item :: items)
    | _ =>
      complete
      pure items.reverse
termination_by structural fuel => fuel

/-- Read the entries of a block mapping that began at `start`. -/
def readEntries (start : Mark) : (fuel : Nat) → List (Node × Node) →
    NodeReader (List (Node × Node))
  | 0, _ => do misfit start (← peek) "did not find expected key"
  | fuel + 1, entries => do
    let p ← peek
    match p.symbol with
    | .key =>
      let key ← readBlockPart p.mark fuel
      let q ← peek
      let value ← if q.symbol = .value then readBlockPart q.mark fuel else missing q.mark
      readEntries start fuel ((key, value) :: entries)
    | .blockEnd =>
      clearHead
      take
      complete
      pure entries.reverse
    | _ => misfit start p "did not find expected key"
termination_by structural fuel => fuel

/-- Read a key or value of a block mapping and the mark in front of it; it may be left out. -/
def readBlockPart (mark : Mark) : (fuel : Nat) → NodeReader Node
  | 0 => missing mark
  | fuel + 1 => do
    take
    let p ← peek
    if endsBlockNode p.symbol then missing mark else readNode true true fuel
termination_by structural fuel => fuel

/-- Read the items of a flow sequence that was opened at `start`. -/
def readFlowItems (start : Mark) : (fuel : Nat) → List Node → NodeReader (List Node)
  | 0, _ => do misfit start (← peek) "did not find expected ',' or ']'"
  | fuel + 1, items => do
    let p ← nextFlow .closeSequence "did not find expected ',' or ']'" start items.isEmpty
    match p.symbol with
    | .closeSequence =>
      closeFlow
      pure items.reverse
    | .key =>
      take
      complete
      let key ← readFlowItemKey fuel
      let value ← readFlowValue .closeSequence fuel
      let _ ← peek
      complete
      readFlowItems start fuel (.mapping (p.mark.line + 1) "!!map" [(key, value)] :: items)
    | _ =>
      let item ← readNode false false fuel
      readFlowItems start fuel (item :: items)
termination_by structural fuel => fuel

/-- Read the key of a mapping that is an item of a flow sequence. A mark that stands in its place is
taken for it. -/
def readFlowItemKey : (fuel : Nat) → NodeReader Node
  | 0 => do missing (← peek).mark
  | fuel + 1 => do
    let p ← peek
    match p.symbol with
    | .value | .comma | .closeSequence =>
      take
      missing p.mark
    | _ => readNode false false fuel
termination_by structural fuel => fuel

/-- Read the entries of a flow mapping that was opened at `start`. -/
def readFlowEntries (start : Mark) : (fuel : Nat) → List (Node × Node) →
    NodeReader (List (Node × Node))
  | 0, _ => do misfit start (← peek) "did not find expected ',' or '\x7d'"
  | fuel + 1, entries => do
    let p ← nextFlow .closeMapping "did not find expected ',' or '\x7d'" start entries.isEmpty
    match p.symbol with
    | .closeMapping =>
      closeFlow
      pure entries.reverse
    | .key =>
      take
      let key ← readFlowKey fuel
      let value ← readFlowValue .closeMapping fuel
      readFlowEntries start fuel ((key, value) :: entries)
    | _ =>
      let key ← readNode false false fuel
      let value ← missing (← peek).mark
      readFlowEntries start fuel ((key, value) :: entries)
termination_by structural fuel => fuel

/-- Read a key of a flow mapping behind its mark; it may be left out. -/
def readFlowKey : (fuel : Nat) → NodeReader Node
  | 0 => do missing (← peek).mark
  | fuel + 1 => do
    let p ← peek
    match p.symbol with
    | .value | .comma | .closeMapping => missing p.mark
    | _ => readNode false false fuel
termination_by structural fuel => fuel

/-- Read a value behind its colon in a flow collection; both may be left out. -/
def readFlowValue (close : Symbol) : (fuel : Nat) → NodeReader Node
  | 0 => do missing (← peek).mark
  | fuel + 1 => do
    let p ← peek
    if p.symbol = .value then
      take
      let q ← peek
      if q.symbol = .comma ∨ q.symbol = close then missing q.mark else readNode false false fuel
    else missing p.mark
termination_by structural fuel => fuel

end

/-! ## Documents -/

/-- Whether a symbol stands where a document has no content. -/
def endsDocument : Symbol → Bool
  | .version .. | .tagHandle .. | .documentStart | .documentEnd | .streamEnd => true
  | _ => false

/-- Read the directives of a document; `versioned` says whether its version has been given. -/
def readDirectives : (fuel : Nat) → (versioned : Bool) → NodeReader Unit
  | 0, _ => pure ()
  | fuel + 1, versioned => do
    let p ← peek
    match p.symbol with
    | .version major minor =>
      if versioned then misplaced p "found duplicate %YAML directive"
      else if major ≠ 1 ∨ minor ≠ 1 then misplaced p "found incompatible YAML document"
      else
        take
        readDirectives fuel true
    | .tagHandle handle start =>
      if ((← get).handles.lookup handle).isSome then misplaced p "found duplicate %TAG directive"
      else
        modify (fun r => { r with handles := r.handles ++ [(handle, start)] })
        take
        readDirectives fuel versioned
    | _ => modify (fun r => { r with handles := r.handles ++ standardHandles })

/-- The part of a comment, last character first, that stands behind its last empty line. -/
def behindEmptyLine : List Char → List Char
  | '\n' :: '\n' :: _ => []
  | c :: rest => c :: behindEmptyLine rest
  | [] => []

/-- The part of the comment at the start of a document that belongs to its first node: none if an
empty line follows it. -/
def nodeHead (head : List Char) : List Char :=
  match head.reverse with
  | '\n' :: _ => []
  | back => (behindEmptyLine back).reverse

/-- A bound for the number of parts of a document. -/
def fuel : NodeReader Nat :=
  return 8 * (← get).scan.bound

/-- Read the root of a document; `none` if there is no document. -/
def readRoot : NodeReader (Option Node) := do
  let _ ← peek
  take
  complete
  let p ← peek
  match p.symbol with
  | .streamEnd =>
    take
    complete
    pure none
  | .version .. | .tagHandle .. | .documentStart =>
    readDirectives (← fuel) false
    let q ← peek
    if q.symbol ≠ .documentStart then misplaced q "did not find expected <document start>"
    else
      take
      complete
      let q ← peek
      if endsDocument q.symbol then return some (← missing q.mark)
      else return some (← readNode true false (← fuel))
  | _ =>
    readDirectives (← fuel) false
    modify (fun r => { r with head := nodeHead r.head })
    complete
    return some (← readNode true false (← fuel))

/-- Read a document up to its end. -/
def readDocument : NodeReader (Option Document) := do
  match ← readRoot with
  | none => pure none
  | some root =>
    let _ ← peek
    complete
    return some ⟨root, (← get).named⟩

end NodeReader

/-- The first document of a text, if there is one. -/
def Document.read (text : String) : Except SyntaxError (Option Document) :=
  match NodeReader.readDocument.run ⟨.start text, [], [], [], [], 0⟩ with
  | .ok d _ => .ok d
  | .error e _ => .error e

end ReversePolish.Yaml
