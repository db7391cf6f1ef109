import ReversePolish.Value

/-!
The table of variables: names with values, in the order in which the names were first set.

A name that is set again keeps its place; one that is deleted and set again goes to the end.
-/

namespace ReversePolish

/-- Named values, first set first. -/
structure Variables where
  entries : List (String × Value)
  deriving DecidableEq, Repr

namespace Variables

def empty : Variables := ⟨[]⟩

/-- Put a value at the place of a name, or at the end if the name is new. -/
def setEntry (name : String) (v : Value) : List (String × Value) → List (String × Value)
  | [] => [(name, v)]
  | entry :: rest => if entry.1 = name then (name, v) :: rest else entry :: setEntry name v rest

/-- Give a name a value. -/
def set (t : Variables) (name : String) (v : Value) : Variables :=
  ⟨setEntry name v t.entries⟩

/-- The value of a name. -/
def get? (t : Variables) (name : String) : Option Value :=
  (t.entries.find? (·.1 = name)).map (·.2)

def contains (t : Variables) (name : String) : Bool :=
  (t.get? name).isSome

/-- Remove a name; the others keep their order. -/
def erase (t : Variables) (name : String) : Variables :=
  ⟨t.entries.eraseP (·.1 = name)⟩

def size (t : Variables) : Nat :=
  t.entries.length

/-- The names, first set first. -/
def names (t : Variables) : List String :=
  t.entries.map (·.1)

/-- Give values to names, one after the other. -/
def setAll (t : Variables) (entries : List (String × Value)) : Variables :=
  entries.foldl (fun t entry => t.set entry.1 entry.2) t

end Variables

end ReversePolish
