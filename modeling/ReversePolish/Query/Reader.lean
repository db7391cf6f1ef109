import ReversePolish.Query.Basic
import ReversePolish.Query.Symbol

/-!
Reading queries.

`|` binds weakest, then `,`. A term may have signs in front of it and is followed by any number of
selections, which bind tighter. Inside an object, the content of a field is a chain of terms.

A number behind a sign, and a number or a text as a key, count for themselves: what is selected from
them is read and dropped.

Only a part of the language is read. Sums and products, comparisons, `and` and `or`, alternatives
(`//`), assignments, conditionals, `try`, folds, bindings, definitions and formats are reported as
unexpected tokens, and interpolation in a text as an invalid escape. A call of any function is read,
whether there is such a function or not.
-/

namespace ReversePolish.Query

/-- Why a text is no query. -/
inductive SyntaxError where
  | ended
  | unexpected (written : List Char)
  | badNumber (written : List Char)
  | badEscape (written : List Char)
  | unterminated
  deriving DecidableEq, Repr

/-- The words for a text that is no query. -/
def SyntaxError.message : SyntaxError → String
  | .ended => "unexpected EOF"
  | .unexpected written =>
    "unexpected token " ++ String.ofList (JsonValue.stringText (String.ofList written))
  | .badNumber written =>
    "invalid token " ++ String.ofList (JsonValue.stringText (String.ofList written))
  | .badEscape written =>
    "invalid escape sequence \"" ++ String.ofList written ++ "\" in string literal"
  | .unterminated => "unterminated string literal"

/-- The error of a symbol that does not fit, or of the end of the text. -/
def misfit {α : Type} : List Written → Except SyntaxError α
  | [] => .error .ended
  | w :: _ =>
    match w.symbol with
    | .unterminated => .error .unterminated
    | .badEscape => .error (.badEscape w.text)
    | .badNumber => .error (.badNumber w.text)
    | _ => .error (.unexpected w.text)

/-- The words that are no names of functions. -/
def reserved : List String :=
  ["or", "and", "module", "import", "include", "def", "as", "label", "break", "if", "then", "elif",
    "else", "end", "try", "catch", "reduce", "foreach"]

/-- Read a mark. -/
def readMark (text : String) (ws : List Written) : Except SyntaxError (List Written) :=
  match ws with
  | ⟨.mark found, _⟩ :: rest => if found = text then .ok rest else misfit ws
  | _ => misfit ws

/-- What is selected from a term. -/
inductive Selection where
  /-- The part that a key stands for. -/
  | part (key : Query)
  /-- What is between two places. -/
  | range (start stop : Query)
  /-- All items or fields. -/
  | each
  /-- What can be selected, if anything can. -/
  | attempt

namespace Selection

/-- The selection of a field by a name that is written out. -/
def named (name : String) : Selection :=
  .part (.literal (.string name))

/-- What a selection that stands for itself picks out of a term. -/
def pick? : Selection → Query → Option Query
  | .part key, target => some (.select target key)
  | .range start stop, target => some (.range target start stop)
  | .each, target => some (.each target)
  | .attempt, _ => none

/-- All that is selected from a term; the selections are held last one first. An attempt is one at
the selection right before it, which is then made from what came out so far; if there is none, it is
one at the whole term. -/
def all (target : Query) : List Selection → Query
  | [] => target
  | .attempt :: last :: before =>
    match last.pick? .identity with
    | some picked => .pipe (all target before) (.attempt picked)
    | none => .attempt (all target (last :: before))
  | [.attempt] => .attempt target
  | selection :: before => (selection.pick? (all target before)).getD target

end Selection

/-- A query as it was read. -/
structure Phrase where
  query : Query
  /-- The number that the query is, or that all is selected from. -/
  number : Option JsonValue
  /-- What the query stands for as a key if it is a constant, whatever is selected from that. -/
  key : Option JsonValue

namespace Phrase

/-- A query that is no constant. -/
def plain (q : Query) : Phrase :=
  ⟨q, none, none⟩

/-- A number. -/
def ofNumber (v : JsonValue) : Phrase :=
  ⟨.literal v, some v, some v⟩

/-- A text. -/
def ofText (s : String) : Phrase :=
  ⟨.literal (.string s), none, some (.string s)⟩

/-- A number with a sign, or a term with one. -/
def signed (sign : Query → Query) (value : JsonValue → Option JsonValue) (p : Phrase) : Phrase :=
  match p.number.bind value with
  | some v => ⟨.literal v, none, some v⟩
  | none => .plain (sign p.query)

/-- The query that a phrase is as a key. -/
def asKey (p : Phrase) : Query :=
  (p.key.map .literal).getD p.query

end Phrase

mutual

/-- Read a chain of lists. -/
def readPipe : (fuel : Nat) → List Written → Except SyntaxError (Phrase × List Written)
  | 0, ws => misfit ws
  | fuel + 1, ws => do
    let (first, rest) ← readList fuel ws
    match rest with
    | ⟨.mark "|", _⟩ :: rest =>
      let (next, rest) ← readPipe fuel rest
      pure (.plain (.pipe first.query next.query), rest)
    | rest => pure (first, rest)

/-- Read a list of terms. -/
def readList : (fuel : Nat) → List Written → Except SyntaxError (Phrase × List Written)
  | 0, ws => misfit ws
  | fuel + 1, ws => do
    let (first, rest) ← readTerm fuel ws
    readMore fuel first rest

/-- Read the further terms of a list. -/
def readMore : (fuel : Nat) → Phrase → List Written → Except SyntaxError (Phrase × List Written)
  | 0, _, ws => misfit ws
  | fuel + 1, sofar, ws =>
    match ws with
    | ⟨.mark ",", _⟩ :: rest => do
      let (next, rest) ← readTerm fuel rest
      readMore fuel (.plain (.both sofar.query next.query)) rest
    | rest => pure (sofar, rest)

/-- Read a term with its selections. -/
def readTerm : (fuel : Nat) → List Written → Except SyntaxError (Phrase × List Written)
  | 0, ws => misfit ws
  | fuel + 1, ws =>
    let literal (v : JsonValue) (rest : List Written) :
        Except SyntaxError (Phrase × List Written) :=
      readSelections fuel (.plain (.literal v)) [] rest
    match ws with
    | ⟨.dot, _⟩ :: ⟨.string s, _⟩ :: rest =>
      readSelections fuel (.plain (.select .identity (.literal (.string s)))) [] rest
    | ⟨.dot, _⟩ :: rest => readSelections fuel (.plain .identity) [] rest
    | ⟨.twoDots, _⟩ :: rest => readSelections fuel (.plain .everything) [] rest
    | ⟨.field name, _⟩ :: rest =>
      readSelections fuel (.plain (.select .identity (.literal (.string name)))) [] rest
    | ⟨.number v, _⟩ :: rest => readSelections fuel (.ofNumber v) [] rest
    | ⟨.mark "-", _⟩ :: rest => do
      let (p, rest) ← readTerm fuel rest
      pure (p.signed .negate negated?, rest)
    | ⟨.mark "+", _⟩ :: rest => do
      let (p, rest) ← readTerm fuel rest
      pure (p.signed .plus number?, rest)
    | ⟨.reference name, _⟩ :: rest | ⟨.qualifiedReference name, _⟩ :: rest =>
      readSelections fuel (.plain (.reference name)) [] rest
    | ⟨.string s, _⟩ :: rest => readSelections fuel (.ofText s) [] rest
    | ⟨.name "null", _⟩ :: rest => literal .null rest
    | ⟨.name "true", _⟩ :: rest => literal (.bool true) rest
    | ⟨.name "false", _⟩ :: rest => literal (.bool false) rest
    | ⟨.name name, text⟩ :: rest =>
      if reserved.contains name then misfit (⟨.name name, text⟩ :: rest)
      else readCall fuel name rest
    | ⟨.qualifiedName name, _⟩ :: rest => readCall fuel name rest
    | ⟨.mark "(", _⟩ :: rest => do
      let (p, rest) ← readPipe fuel rest
      let rest ← readMark ")" rest
      readSelections fuel (.plain p.query) [] rest
    | ⟨.mark "[", _⟩ :: ⟨.mark "]", _⟩ :: rest =>
      readSelections fuel (.plain (.array (.call "empty" []))) [] rest
    | ⟨.mark "[", _⟩ :: rest => do
      let (p, rest) ← readPipe fuel rest
      let rest ← readMark "]" rest
      readSelections fuel (.plain (.array p.query)) [] rest
    | ⟨.mark "\x7b", _⟩ :: rest => do
      let (fields, rest) ← readFields fuel rest
      readSelections fuel (.plain (.object fields)) [] rest
    | ws => misfit ws

/-- Read the arguments of a function, if it has some, and the selections behind it. -/
def readCall : (fuel : Nat) → String → List Written → Except SyntaxError (Phrase × List Written)
  | 0, _, ws => misfit ws
  | fuel + 1, name, ws =>
    match ws with
    | ⟨.mark "(", _⟩ :: rest => do
      let (arguments, rest) ← readArguments fuel rest
      readSelections fuel (.plain (.call name arguments)) [] rest
    | rest => readSelections fuel (.plain (.call name [])) [] rest

/-- Read the selections behind a term, after those before, which are held last one first. -/
def readSelections : (fuel : Nat) → Phrase → List Selection → List Written →
    Except SyntaxError (Phrase × List Written)
  | 0, _, _, ws => misfit ws
  | fuel + 1, target, sofar, ws =>
    let more (selection : Selection) (rest : List Written) :
        Except SyntaxError (Phrase × List Written) :=
      readSelections fuel target (selection :: sofar) rest
    match ws with
    | ⟨.field name, _⟩ :: rest => more (.named name) rest
    | ⟨.dot, _⟩ :: ⟨.string s, _⟩ :: rest => more (.named s) rest
    | ⟨.dot, _⟩ :: ⟨.mark "[", text⟩ :: rest =>
      readSelections fuel target sofar (⟨.mark "[", text⟩ :: rest)
    | ⟨.dot, _⟩ :: rest => misfit rest
    | ⟨.mark "[", _⟩ :: ⟨.mark "]", _⟩ :: rest => more .each rest
    | ⟨.mark "[", _⟩ :: ⟨.mark ":", _⟩ :: rest => do
      let (stop, rest) ← readPipe fuel rest
      let rest ← readMark "]" rest
      more (.range (.literal .null) stop.query) rest
    | ⟨.mark "[", _⟩ :: rest => do
      let (key, rest) ← readPipe fuel rest
      match rest with
      | ⟨.mark ":", _⟩ :: ⟨.mark "]", _⟩ :: rest => more (.range key.query (.literal .null)) rest
      | ⟨.mark ":", _⟩ :: rest =>
        let (stop, rest) ← readPipe fuel rest
        let rest ← readMark "]" rest
        more (.range key.query stop.query) rest
      | rest =>
        let rest ← readMark "]" rest
        more (.part key.asKey) rest
    | ⟨.mark "?", _⟩ :: rest => more .attempt rest
    | rest => pure (⟨Selection.all target.query sofar, target.number, target.key⟩, rest)

/-- Read the arguments of a function up to the closing parenthesis. -/
def readArguments : (fuel : Nat) → List Written → Except SyntaxError (List Query × List Written)
  | 0, ws => misfit ws
  | fuel + 1, ws => do
    let (p, rest) ← readPipe fuel ws
    match rest with
    | ⟨.mark ";", _⟩ :: rest =>
      let (more, rest) ← readArguments fuel rest
      pure (p.query :: more, rest)
    | rest =>
      let rest ← readMark ")" rest
      pure ([p.query], rest)

/-- Read the fields of an object up to the closing brace; a comma may stand behind the last. -/
def readFields :
    (fuel : Nat) → List Written → Except SyntaxError (List (Query × Query) × List Written)
  | 0, ws => misfit ws
  | fuel + 1, ws =>
    match ws with
    | ⟨.mark "\x7d", _⟩ :: rest => pure ([], rest)
    | ws => do
      let (field, rest) ← readField fuel ws
      match rest with
      | ⟨.mark ",", _⟩ :: rest =>
        let (more, rest) ← readFields fuel rest
        pure (field :: more, rest)
      | rest =>
        let rest ← readMark "\x7d" rest
        pure ([field], rest)

/-- Read a field of an object. A name on its own takes the field of that name. -/
def readField : (fuel : Nat) → List Written → Except SyntaxError ((Query × Query) × List Written)
  | 0, ws => misfit ws
  | fuel + 1, ws =>
    let named (name : String) (rest : List Written) :
        Except SyntaxError ((Query × Query) × List Written) :=
      match rest with
      | ⟨.mark ":", _⟩ :: rest => do
        let (content, rest) ← readContent fuel rest
        pure ((.literal (.string name), content), rest)
      | rest =>
        pure ((.literal (.string name), .select .identity (.literal (.string name))), rest)
    match ws with
    | ⟨.name name, _⟩ :: rest => named name rest
    | ⟨.string name, _⟩ :: rest => named name rest
    | ⟨.reference name, _⟩ :: ⟨.mark ":", _⟩ :: rest => do
      let (content, rest) ← readContent fuel rest
      pure ((.reference name, content), rest)
    | ⟨.reference name, _⟩ :: rest => pure ((.reference name, .reference name), rest)
    | ⟨.mark "(", _⟩ :: rest => do
      let (name, rest) ← readPipe fuel rest
      let rest ← readMark ")" rest
      let rest ← readMark ":" rest
      let (content, rest) ← readContent fuel rest
      pure ((name.query, content), rest)
    | ws => misfit ws

/-- Read the content of a field: a chain of terms. -/
def readContent : (fuel : Nat) → List Written → Except SyntaxError (Query × List Written)
  | 0, ws => misfit ws
  | fuel + 1, ws => do
    let (first, rest) ← readTerm fuel ws
    match rest with
    | ⟨.mark "|", _⟩ :: rest =>
      let (next, rest) ← readContent fuel rest
      pure (.pipe first.query next, rest)
    | rest => pure (first.query, rest)

end

/-- Read a query. A text without any symbol is one that is missing. -/
def read (text : String) : Except SyntaxError Query :=
  let ws := symbolsOf text
  match ws with
  | [] | ⟨.stop, _⟩ :: _ => .ok .missing
  | ws => do
    let (p, rest) ← readPipe (4 * ws.length + 4) ws
    match rest with
    | [] | ⟨.stop, _⟩ :: _ => pure p.query
    | rest => misfit rest

end ReversePolish.Query
