import ReversePolish.Text.Blank
import ReversePolish.Text.Quoted

/-!
Duplicate policies: what becomes of an operator whose name is already taken.

A policy may be any byte; those without a name act like `shadow`.
-/

namespace ReversePolish

/-- What registering a name twice does. -/
inductive Policy where
  /-- Both stay, and the name means the first. -/
  | shadow
  /-- Both stay, and the name means the last. -/
  | override
  /-- The second is refused. -/
  | reject
  | other (code : UInt8)
  deriving DecidableEq, Repr, Inhabited

namespace Policy

/-- The policy with a code. -/
def ofCode (code : UInt8) : Policy :=
  match code.toNat with
  | 0 => .shadow
  | 1 => .override
  | 2 => .reject
  | _ => .other code

def code : Policy → UInt8
  | .shadow => 0
  | .override => 1
  | .reject => 2
  | .other code => code

def name : Policy → String
  | .shadow => "shadow"
  | .override => "override"
  | .reject => "reject"
  | .other code => "policy(" ++ toString code.toNat ++ ")"

/-- The lower-case form of a character, as far as it is an ASCII letter: besides the ASCII capitals
only the dotted capital I and the sign for kelvin have such a form. -/
def lowerChar (c : Char) : Char :=
  if c.toNat = 0x130 then 'i' else if c.toNat = 0x212a then 'k' else c.toLower

/-- The policy with a name, in any mixture of cases and with blanks around it; no name at all means
`shadow`. -/
def ofName? (s : String) : Option Policy :=
  match String.ofList ((Text.trimBlanks s.toList).map lowerChar) with
  | "" => some .shadow
  | "shadow" => some .shadow
  | "override" => some .override
  | "reject" => some .reject
  | _ => none

/-- The words for a text that names no policy. -/
def unknownMessage (s : String) : String :=
  "unknown duplicate policy " ++ Text.quote s

end Policy

end ReversePolish
