import ReversePolish.Text.Quoted
import ReversePolish.Token

/-!
Definitions of variables on the command line, written `name=value`.

Blanks around the name and around the value are ignored, and so is one sigil in front of the name.
-/

namespace ReversePolish.CommandLine

/-- Why a definition is refused; `text` is the whole of it. -/
inductive DefinitionError where
  | malformed (text : String)
  | badValue (text : String)
  deriving DecidableEq, Repr

/-- The words for a refused definition. -/
def DefinitionError.message : DefinitionError → String
  | .malformed text => "bad define " ++ Text.quote text ++ ", want name=value"
  | .badValue text => "bad value in define " ++ Text.quote text

/-- Read a definition. The first equals sign ends the name. -/
def parseDefinition (text : String) : Except DefinitionError (String × Value) :=
  let (before, after) := text.toList.span (· != '=')
  let name := Text.dropLeading Token.sigil (String.ofList (Text.trimBlanks before))
  match after with
  | [] => .error (.malformed text)
  | _ :: written =>
    if name = "" then .error (.malformed text)
    else
      match Value.read? (String.ofList (Text.trimBlanks written)) with
      | some v => .ok (name, v)
      | none => .error (.badValue text)

end ReversePolish.CommandLine
