import ReversePolish.Builtin
import ReversePolish.Script

/-!
Operators: the builtins, and those that callers register under a name and an arity of their choice.
-/

namespace ReversePolish

/-- What a name in an expression may call. -/
inductive Operator where
  | builtin (b : Builtin)
  | custom (name : String) (arity : Nat) (callback : Callback)

namespace Operator

def name : Operator → String
  | .builtin b => b.name
  | .custom name _ _ => name

/-- The number of values that must be on the stack for the operator to be called. -/
def arity : Operator → Nat
  | .builtin b => b.arity
  | .custom _ arity _ => arity

/-- The explanation of the operator; registered ones have none. -/
def help : Operator → Help
  | .builtin b => b.help
  | .custom .. => .empty

end Operator

end ReversePolish
