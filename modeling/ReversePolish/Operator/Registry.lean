import Std.Data.HashMap
import ReversePolish.Operator
import ReversePolish.Operator.Policy

/-!
The registry of operators: an ordered table with an index over the hashes of the names.

The table keeps every operator that was accepted, in order. The index has one slot for each hash,
and the slot holds the place of the operator that a name with this hash means. Two names may have
the same hash; then the slot belongs to the one that came first, and the other is looked up in the
table. Which hash is used is a parameter, because no lookup depends on it.
-/

namespace ReversePolish

/-- The usual hash of a name: its bytes are mixed into the running value one after the other, each
by an exclusive or and a multiplication. -/
def nameHash (name : String) : UInt64 :=
  name.toUTF8.foldl (fun h b => (h ^^^ b.toUInt64) * 0x100000001b3) 0xcbf29ce484222325

/-- Operators in the order of their registration, with an index. -/
structure Registry (hash : String → UInt64) where
  policy : Policy
  entries : List Operator
  slots : Std.HashMap UInt64 Nat

/-- Why an operator is not registered. -/
inductive RegisterError where
  | invalidName (name : String)
  | negativeArity (name : String) (arity : Int)
  | missingCallback (name : String)
  | duplicate (name : String)
  deriving DecidableEq, Repr

/-- The words for a refused registration. -/
def RegisterError.message : RegisterError → String
  | .invalidName name => "invalid operator name " ++ Text.quote name
  | .negativeArity name arity =>
    "operator " ++ Text.quote name ++ ": negative arity " ++ toString arity
  | .missingCallback name => "operator " ++ Text.quote name ++ ": nil callback"
  | .duplicate name => "operator already registered: " ++ name

namespace Registry

variable {hash : String → UInt64}

def empty (policy : Policy) : Registry hash :=
  ⟨policy, [], ∅⟩

/-- The registry without its operators. -/
def clear (r : Registry hash) : Registry hash :=
  empty r.policy

/-- The names in the order of their registration, repeated ones included. -/
def names (r : Registry hash) : List String :=
  r.entries.map Operator.name

/-- The place that a name means, found without the index: the last one under `override`, otherwise
the first. -/
def scan? (policy : Policy) (entries : List Operator) (name : String) : Option Nat :=
  if policy = .override then
    (entries.reverse.findIdx? (·.name = name)).map (fun i => entries.length - 1 - i)
  else entries.findIdx? (·.name = name)

/-- The place that a name means. -/
def find? (r : Registry hash) (name : String) : Option Nat :=
  match r.slots[hash name]? with
  | none => none
  | some i =>
    match r.entries[i]? with
    | some op => if op.name = name then some i else scan? r.policy r.entries name
    | none => scan? r.policy r.entries name

/-- The operator that a name means. -/
def lookup? (r : Registry hash) (name : String) : Option Operator :=
  (r.find? name).bind (r.entries[·]?)

/-- Whether a new operator called `name` takes over the slot of its hash. -/
def takesSlot (r : Registry hash) (name : String) : Bool :=
  match r.slots[hash name]? with
  | none => true
  | some i => r.policy = .override && (r.entries[i]?).any (·.name = name)

/-- Append an operator. -/
def insert (r : Registry hash) (op : Operator) : Registry hash :=
  { policy := r.policy
    entries := r.entries ++ [op]
    slots :=
      if r.takesSlot op.name then r.slots.insert (hash op.name) r.entries.length else r.slots }

/-- Append several operators. -/
def insertAll (r : Registry hash) (ops : List Operator) : Registry hash :=
  ops.foldl insert r

/-- Whether a name can stand in an expression as one word. -/
def validName (name : String) : Bool :=
  !name.toList.isEmpty && !name.toList.any Text.isBlank

/-- Register an operator of a caller. -/
def register (r : Registry hash) (name : String) (arity : Int) (callback : Option Callback) :
    Except RegisterError (Registry hash) :=
  if !validName name then .error (.invalidName name)
  else if arity < 0 then .error (.negativeArity name arity)
  else
    match callback with
    | none => .error (.missingCallback name)
    | some callback =>
      if r.policy = .reject ∧ (r.find? name).isSome then .error (.duplicate name)
      else .ok (r.insert (.custom name arity.toNat callback))

end Registry

/-- The operators of a context. -/
abbrev OperatorTable := Registry nameHash

end ReversePolish
