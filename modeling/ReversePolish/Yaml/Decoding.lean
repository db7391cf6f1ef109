import ReversePolish.Text.Base64
import ReversePolish.Text.Quoted
import ReversePolish.Yaml.Node

/-!
Data from the nodes of a YAML document.

Everything that is of the wrong type is reported, in the order in which it is met. A mapping may
take over the entries of others, which count less than its own.

A node that is used again is read again at each place. A document in which nearly all that is read
is read again is refused, and so is a use of a node inside itself that is met while it is followed.
-/

namespace ReversePolish.Yaml

/-! ## What can go wrong -/

/-- What is of the wrong type in a document. -/
inductive TypeError where
  /-- A node that is no `target`; a collection has no text. -/
  | mismatch (line : Nat) (tag text target : String)
  | duplicateKey (line : Nat) (key : String) (first : Nat)
  | duplicateField (line : Nat) (name target : String)
  deriving DecidableEq, Repr

namespace TypeError

/-- Texts longer than this many bytes are cut in messages. -/
def shownLimit : Nat := 10

/-- A text as a message shows it. -/
def shorten (s : String) : String :=
  if shownLimit < s.utf8ByteSize then String.ofList (Text.front 7 s.toList).shown ++ "..." else s

/-- A node by its tag and its text; texts with the tags of collections are not set apart. -/
def describe (tag text : String) : String :=
  if tag = "!!seq" ∨ tag = "!!map" then tag ++ text else tag ++ " `" ++ shorten text ++ "`"

/-- The words for what is of the wrong type. -/
def message : TypeError → String
  | .mismatch line tag text target =>
    "line " ++ toString line ++ ": cannot unmarshal " ++ describe tag text ++ " into " ++ target
  | .duplicateKey line key first =>
    "line " ++ toString line ++ ": mapping key " ++ Text.quote key ++ " already defined at line " ++
      toString first
  | .duplicateField line name target =>
    "line " ++ toString line ++ ": field " ++ name ++ " already set in type " ++ target

end TypeError

/-- What ends the reading of a document at once. -/
inductive Failure where
  | badTag (e : Scalar.TagError)
  | badBytes
  | badMerge
  | containsItself (name : String)
  | tooManyUses
  deriving DecidableEq, Repr

/-- The words for what ends the reading. -/
def Failure.message : Failure → String
  | .badTag e => e.message
  | .badBytes => "!!binary value contains invalid base64 data"
  | .badMerge => "map merge requires map or sequence of maps as the value"
  | .containsItself name => "anchor '" ++ name ++ "' value contains itself"
  | .tooManyUses => "document contains excessive aliasing"

/-! ## Following nodes -/

/-- What is known while a document is read. -/
structure Progress where
  /-- The nodes with names, by their numbers. -/
  named : List (Nat × Node)
  /-- How often nodes have been read. -/
  reads : Nat
  /-- How often of that it was while a node was read again. -/
  repeats : Nat
  /-- The uses of nodes that are being followed. -/
  active : List Nat
  /-- What is of the wrong type, last one first. -/
  errors : List TypeError

namespace Progress

/-- Up to this many reads, 99 in a hundred may be repeats. -/
def smallCount : Nat := 400000

/-- From this many reads on, 10 in a hundred may be repeats. -/
def largeCount : Nat := 4000000

/-- Whether more of the reads are repeats than may be: the part goes down evenly between the small
and the large count. -/
def exceeds (reads repeats : Nat) : Bool :=
  if reads ≤ smallCount then 99 * reads < 100 * repeats
  else if largeCount ≤ reads then 10 * reads < 100 * repeats
  else
    let range := largeCount - smallCount
    (99 * range - 89 * (reads - smallCount)) * reads < 100 * range * repeats

/-- Whether there are enough reads and repeats to tell that they are too many. -/
def tooMany (p : Progress) : Bool :=
  100 < p.repeats && 1000 < p.reads && exceeds p.reads p.repeats

end Progress

/-- A step of reading data. -/
abbrev Decoder := EStateM Failure Progress

namespace Decoder

/-- Report something of the wrong type. -/
def report (e : TypeError) : Decoder Unit :=
  modify (fun p => { p with errors := e :: p.errors })

/-- Count a node that is read. -/
def count : Decoder Unit := do
  modify (fun p =>
    { p with
      reads := p.reads + 1
      repeats := if p.active.isEmpty then p.repeats else p.repeats + 1 })
  if (← get).tooMany then throw .tooManyUses

/-- The node with a number. -/
def target (id : Nat) : Decoder Node :=
  return ((← get).named.lookup id).getD (.missing 0)

/-- Read a node, or the one that is meant if it is used again. -/
def visit {α : Type} (read : Node → Decoder α) (n : Node) : Decoder α := do
  count
  match n with
  | .alias _ use name id =>
    if (← get).active.contains use then throw (.containsItself name)
    else
      modify (fun p => { p with active := use :: p.active })
      count
      let a ← read (← target id)
      modify (fun p => { p with active := p.active.tail })
      pure a
  | n => read n

/-! ## Scalars -/

/-- The text by which keys are compared; collections have none. -/
def keyText : Node → String
  | .scalar _ _ text => text
  | .alias _ _ name _ => name
  | _ => ""

/-- Whether two keys are the same. -/
def sameKey : Node → Node → Bool
  | .scalar _ _ a, .scalar _ _ b => a == b
  | .sequence .., .sequence .. => true
  | .mapping .., .mapping .. => true
  | .alias _ _ a _, .alias _ _ b _ => a == b
  | _, _ => false

/-- The keys of a mapping that were there before. -/
def duplicateKeys : List (Node × Node) → List TypeError
  | [] => []
  | (key, _) :: rest =>
    (rest.filter (fun entry => sameKey key entry.1)).map
        (fun entry => .duplicateKey entry.1.line (keyText entry.1) key.line) ++
      duplicateKeys rest

/-- Report the keys of a mapping that come twice; whether there are none is the result. -/
def checkKeys (entries : List (Node × Node)) : Decoder Bool := do
  let errors := duplicateKeys entries
  errors.forM report
  pure errors.isEmpty

/-- The tag of bytes that are written in base 64. -/
def bytesTag : String := "!!binary"

/-- The meaning of a scalar. -/
def meaning (tag text : String) : Decoder Scalar :=
  if tag = bytesTag then
    match Text.Base64.decode? text with
    | some bytes => pure (.text (String.ofList (Text.decode bytes)))
    | none => throw .badBytes
  else
    match Scalar.resolve tag text with
    | .ok m => pure m
    | .error e => throw (.badTag e)

/-- Read a scalar by its meaning and its text; a collection is of the wrong type, and nothing is not
read at all. If the target is `optional`, that shows in what is reported of a collection that is
tagged as nothing. -/
def scalar {α : Type} (target : String) (optional : Bool) (convert : Scalar → String → Option α) :
    Node → Decoder (Option α)
  | .scalar line tag text => do
    match ← meaning tag text with
    | .null => pure none
    | m =>
      match convert m text with
      | some a => pure (some a)
      | none =>
        report (.mismatch line tag text target)
        pure none
  | .sequence line tag _ => do
    report (collection line tag)
    pure none
  | .mapping line tag entries => do
    if ← checkKeys entries then report (collection line tag)
    pure none
  | .alias .. => pure none
where
  /-- The error of a collection. -/
  collection (line : Nat) (tag : String) : TypeError :=
    .mismatch line tag "" (if optional && tag = Scalar.null.tag then "*" ++ target else target)

/-- Words for truth values that are accepted besides the usual ones. -/
def boolWord? : String → Option Bool
  | "y" | "Y" | "yes" | "Yes" | "YES" | "on" | "On" | "ON" => some true
  | "n" | "N" | "no" | "No" | "NO" | "off" | "Off" | "OFF" => some false
  | _ => none

/-- Read a truth value. -/
def bool (optional : Bool) : Node → Decoder (Option Bool) :=
  visit (scalar "bool" optional (fun
    | .bool b, _ => some b
    | .text s, _ => boolWord? s
    | _, _ => none))

/-- Read an integer of 64 bits. A floating-point number loses its fraction. -/
def int : Node → Decoder (Option Int) :=
  visit (scalar "int" false (fun
    | .integer i, _ => if i < Floating.countLimit then some i else none
    | .float x, _ => if x.le (.ofInt Floating.countLimit) then some x.count else none
    | _, _ => none))

/-- Read a text. Every scalar is one, as it was written. -/
def text : Node → Decoder (Option String) :=
  visit (scalar "string" false (fun
    | .text s, _ => some s
    | _, text => some text))

/-- Read a value. Numbers are doubles first. -/
def value : Node → Decoder (Option Value) :=
  visit (scalar "float32" false (fun
    | .integer i, _ => some (Floating.ofInt i : Double).convert
    | .float x, _ => some x.convert
    | _, _ => none))

/-! ## Mappings -/

/-- How a mapping is read into a `σ`. -/
structure Shape (σ : Type) where
  /-- The name of the target in messages. -/
  target : String
  /-- The names that may come once only. -/
  fields : List String
  /-- Put an entry in its place; the first argument says whether it is taken over. -/
  put : Bool → σ → String → Node → Decoder σ

/-- Whether a key marks the mapping whose entries are taken over. -/
def isMergeKey : Node → Bool
  | .scalar _ "!!merge" "<<" => true
  | _ => false

/-- The name that a key counts for when entries are taken over: only texts do. -/
def ownName? : Node → Decoder (Option String)
  | .scalar _ tag s => do
    match ← meaning tag s with
    | .text s => pure (some s)
    | _ => pure none
  | _ => pure none

/-- The names that the keys of a mapping count for. -/
def ownNames : List (Node × Node) → Decoder (List String)
  | [] => pure []
  | (key, _) :: rest => do
    let name ← visit ownName? key
    return name.toList ++ (← ownNames rest)

/-- What has been read of a mapping. -/
structure Filling (σ : Type) where
  state : σ
  /-- The names that entries taken over must not have, while entries are taken over. -/
  taken : Option (List String)
  /-- The names of the mapping itself. -/
  done : List String

/-- Read an entry of a mapping. A key that is nothing is passed over, and so is one that must not be
taken over. -/
def entry {σ : Type} (shape : Shape σ) (f : Filling σ) (key content : Node) :
    Decoder (Filling σ) := do
  if isMergeKey key then pure f
  else
    match ← text key with
    | none => pure f
    | some name =>
      if (f.taken.getD []).contains name then pure f
      else
        let f := { f with taken := f.taken.map (name :: ·) }
        if shape.fields.contains name && f.done.contains name then
          report (.duplicateField key.line name shape.target)
          pure f
        else
          let state ← shape.put f.taken.isSome f.state name content
          pure { f with state := state, done := name :: f.done }

/-- Whether a node is a mapping. -/
def isMapping : Node → Decoder Bool
  | .mapping .. => pure true
  | .alias _ _ _ id => do
    match ← target id with
    | .mapping .. => pure true
    | _ => pure false
  | _ => pure false

/-- Read the entries of a mapping into `state`: first its own, then those that it takes over.
Entries that are taken over themselves must not have one of the names `taken`, to which theirs are
added. -/
def entries {σ : Type} (shape : Shape σ) : (fuel : Nat) → σ → (taken : Option (List String)) →
    Node → Decoder (σ × Option (List String))
  | 0, state, taken, _ => pure (state, taken)
  | fuel + 1, state, taken, .mapping _ _ pairs => do
    if ← checkKeys pairs then
      let f ← pairs.foldlM (fun f pair => entry shape f pair.1 pair.2) ⟨state, taken, []⟩
      match pairs.find? (fun pair => isMergeKey pair.1) with
      | none => pure (f.state, f.taken)
      | some (_, merged) =>
        let names ← match f.taken with
          | some names => pure names
          | none => ownNames pairs
        let sources := match merged with
          | .sequence _ _ items => items
          | n => [n]
        let (state, names) ← sources.foldlM
          (fun (state, names) source => do
            if ← isMapping source then visit (entries shape fuel state names) source
            else throw .badMerge)
          (f.state, some names)
        pure (state, f.taken.bind (fun _ => names))
    else pure (state, taken)
  | _, state, taken, _ => pure (state, taken)

/-- Read a mapping into `state`; other nodes are of the wrong type, and nothing leaves it as it is.
-/
def mapping {σ : Type} (shape : Shape σ) (fuel : Nat) (state : σ) : Node → Decoder σ :=
  visit (fun
    | .mapping line tag pairs => do
      let (state, _) ← entries shape fuel state none (.mapping line tag pairs)
      pure state
    | n => do
      let _ ← scalar (α := Unit) shape.target false (fun _ _ => none) n
      pure state)

end Decoder

/-- What a reader makes of a document, or everything that is of the wrong type in it. Following a
node goes down the document, or to a use of a node that is not followed yet, so the square of the
size of the document bounds how deep it goes. -/
def Document.decode {α : Type} (d : Document) (read : Node → Decoder α) :
    Except Failure (α × List TypeError) :=
  match (read d.root).run ⟨d.named, 1, 0, [], []⟩ with
  | .ok a p => .ok (a, p.errors.reverse)
  | .error e _ => .error e

end ReversePolish.Yaml
