import ReversePolish.Text.Quoted

/-!
How evaluations end.

`Status` is what a context remembers of its last evaluation. `Outcome` is what an operator answers
to the evaluation that called it. Callbacks may answer with any byte, so both have an encoding in
bytes: an unknown status keeps its number, an unknown outcome is a failure.
-/

namespace ReversePolish

/-- The kinds of failure, and the absence of one. -/
inductive Status where
  | ok
  | unknownToken
  | argumentCount
  | divideByZero
  | invalidArgument
  | other (code : UInt8)
  deriving DecidableEq, Repr, Inhabited

namespace Status

/-- The status with a code. -/
def ofCode (code : UInt8) : Status :=
  match code.toNat with
  | 0 => .ok
  | 1 => .unknownToken
  | 2 => .argumentCount
  | 3 => .divideByZero
  | 4 => .invalidArgument
  | _ => .other code

/-- The words for a status. -/
def describe : Status → String
  | .ok => "ok"
  | .unknownToken => "unknown token"
  | .argumentCount => "argument count mismatch"
  | .divideByZero => "divide by zero"
  | .invalidArgument => "invalid argument"
  | .other code => "error kind " ++ toString code.toNat

end Status

/-- The answer of an operator. -/
inductive Outcome where
  /-- Continue with the next token. -/
  | proceed
  /-- Stop here, successfully. -/
  | halt
  /-- Stop here, for a reason. -/
  | fail (reason : Status)
  deriving DecidableEq, Repr

/-- The outcome with a code; the reason matters only to a failure. -/
def Outcome.ofCodes (code reason : UInt8) : Outcome :=
  match code.toNat with
  | 0 => .proceed
  | 1 => .halt
  | _ => .fail (.ofCode reason)

/-- The failure of an evaluation: why, at which token, and the place of that token counted
from zero. -/
structure Fault where
  reason : Status
  token : String
  position : Nat
  deriving DecidableEq, Repr

/-- The words for a failure at a token; they count tokens from one. -/
def Status.messageAt (reason : Status) (position : Nat) (quoted : String) : String :=
  reason.describe ++ " at token " ++ toString (position + 1) ++ " (" ++ quoted ++ ")"

/-- The words for a failure. -/
def Fault.message (f : Fault) : String :=
  f.reason.messageAt f.position (Text.quote f.token)

end ReversePolish
