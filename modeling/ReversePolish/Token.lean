import ReversePolish.Text.Blank
import ReversePolish.Value

/-!
Tokens of an expression.

An expression is cut into words. A word is a literal (an optional sign, digits, and possibly a point
with further digits), the name of an operator, or the sigil `$` followed by the name of a variable.
A literal means its exact decimal value, rounded once; one that is too large means an infinity.
-/

namespace ReversePolish.Token

/-- The tokens of an expression, from left to right. -/
def tokenize (input : String) : List String :=
  Text.words input

/-- Whether a token is a literal. A point must follow a digit, so `.5` is none and `5.` is one. -/
def isLiteral (token : String) : Bool :=
  let m := Numeral.splitMantissa Numeral.isDecimalDigit (Numeral.splitSign token.toList).2
  !m.whole.isEmpty && m.rest.isEmpty

/-- The value of a literal. Every literal is a numeral, so the default is never taken. -/
def literalValue (token : String) : Value :=
  match Numeral.ofText? token with
  | some n => n.round
  | none => 0

/-- The character that marks a variable. -/
def sigil : Char := '$'

/-- The name in a reference to a variable. The sigil alone refers to none. -/
def variableName? (token : String) : Option String :=
  match token.toList with
  | '$' :: c :: rest => some (String.ofList (c :: rest))
  | _ => none

end ReversePolish.Token
