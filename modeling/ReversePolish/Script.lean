import ReversePolish.Value
import ReversePolish.Status

/-!
Scripts: what callbacks do.

An operator that is registered by a caller, and a hook that watches an evaluation, run a finite
script of calls on contexts. A step of a script names the context it is meant for, or means the
context that the callback was called with. A script may evaluate, register further operators and set
further hooks, so scripts and calls are defined together.
-/

namespace ReversePolish

mutual

/-- A call on a context. -/
inductive Call where
  /-- Evaluate an expression; under `strict` an unset variable is an unknown token. -/
  | evaluate (input : String) (strict : Bool)
  | push (v : Value)
  | pop
  /-- Look at a value, counted from the top of the stack. -/
  | peek (i : Int)
  | size
  | clearStack
  | set (name : String) (v : Value)
  /-- Pop a value into a variable. -/
  | store (name : String)
  | get (name : String)
  | delete (name : String)
  | clearVariables
  | variableCount
  | variableNames
  | register (name : String) (arity : Int) (callback : Option Callback)
  | operator (name : String)
  | operators
  | clearOperators
  /-- Set or remove the hook of the context, or the one that all contexts without their own share.
  -/
  | hook (shared : Bool) (hook : Option Hook)
  | close

/-- A call and the context it is meant for; `none` is the context of the callback. -/
inductive Step where
  | on (target : Option Nat) (call : Call)

/-- What a registered operator does, and the outcome it reports. -/
inductive Callback where
  | run (body : List Step) (outcome : Outcome)

/-- What watches an evaluation, token by token. -/
inductive Hook where
  /-- Put each token into the journal as a trace. -/
  | trace
  /-- Put each token into the journal under a label, then run a script. -/
  | script (label : String) (body : List Step)

end

instance : Inhabited Call := ⟨.size⟩
instance : Inhabited Callback := ⟨.run [] .proceed⟩

/-- The steps of a callback. -/
def Callback.body : Callback → List Step
  | .run body _ => body

/-- The outcome that a callback reports. -/
def Callback.outcome : Callback → Outcome
  | .run _ outcome => outcome

end ReversePolish
