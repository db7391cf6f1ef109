import ReversePolish.Session

/-!
Completion of the last word of a line by the names it may be the beginning of.

The last word starts behind the last space or tab. If it starts with the sigil it is completed to a
variable, otherwise to an operator.
-/

namespace ReversePolish

namespace Session

/-- Whether a character ends the word before it, as far as completion is concerned. -/
def endsWord (c : Char) : Bool :=
  c == ' ' || c == '\t'

/-- A line up to its last space or tab, and the word behind it. -/
def splitLastWord (cs : List Char) : List Char × List Char :=
  let (word, head) := cs.reverse.span (fun c => !endsWord c)
  (head.reverse, word.reverse)

/-- The names that a word may be completed to, each once. -/
def candidates (c : Context) (word : List Char) : List String :=
  let names :=
    if word.head? = some Token.sigil then
      c.vars.names.map (fun name => String.singleton Token.sigil ++ name)
    else c.operators.names
  (names.filter (fun name => word.isPrefixOf name.toList)).eraseDups

/-- The lines that a line may be completed to. -/
def complete (s : Session) (line : String) : List String :=
  let (head, word) := splitLastWord line.toList
  match s.context? with
  | none => []
  | some c =>
    if word.isEmpty then [] else (candidates c word).map (fun name => String.ofList head ++ name)

end Session

end ReversePolish
