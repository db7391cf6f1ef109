import ReversePolish.Context
import ReversePolish.Json.Reader
import ReversePolish.Query.Reader

/-!
Variables from a JSON document.

A query picks objects out of the document. Each is flattened: the names of nested fields are joined
by dots, and truth values count as one and zero. All names are set in ascending order, and only if
nothing went wrong. Where a name comes up twice, the later one counts.
-/

namespace ReversePolish.JsonValue

/-- Why no variables are loaded. -/
inductive LoadError where
  | badQuery (query : String) (e : Query.SyntaxError)
  | badDocument (e : ReadError)
  | failed (query : String) (e : QueryError)
  | notObject (query typeName : String)
  | notNumber (name typeName : String)

/-- The words for variables that are not loaded. -/
def LoadError.message : LoadError → String
  | .badQuery query e => "invalid query " ++ Text.quote query ++ ": " ++ e.message
  | .badDocument e => "could not decode JSON: " ++ e.message
  | .failed query e => "query " ++ Text.quote query ++ ": " ++ e.message
  | .notObject query typeName =>
    "query " ++ Text.quote query ++ " must yield objects, got " ++ typeName
  | .notNumber name typeName =>
    "variable " ++ Text.quote name ++ ": " ++ typeName ++ " is not a number"

/-- The name of a field inside an object that has a name itself; at the outside that is empty. -/
def joinName (outer name : String) : String :=
  if outer = "" then name else outer ++ "." ++ name

mutual

/-- The variables that a value called `name` stands for. -/
def flattenValue (name : String) : JsonValue → Except LoadError (List (String × Value))
  | .number x => .ok [(name, x.convert)]
  | .integer i => .ok [(name, .ofInt i)]
  | .bool b => .ok [(name, .ofBool b)]
  | .object fields => flatten name fields
  | .wide i => .error (.notNumber name (typeName (.wide i)))
  | .null => .error (.notNumber name (typeName .null))
  | .string s => .error (.notNumber name (typeName (.string s)))
  | .array items => .error (.notNumber name (typeName (.array items)))

/-- The variables that the fields of an object called `outer` stand for, in the order of the
fields. -/
def flatten (outer : String) :
    List (String × JsonValue) → Except LoadError (List (String × Value))
  | [] => .ok []
  | (name, v) :: rest =>
    match flattenValue (joinName outer name) v with
    | .error e => .error e
    | .ok first =>
      match flatten outer rest with
      | .error e => .error e
      | .ok more => .ok (first ++ more)

end

/-- The variables of all the objects that a query answers. -/
def flattenAnswers (query : String) : List JsonValue → Option QueryError →
    Except LoadError (List (String × Value))
  | [], some e => .error (.failed query e)
  | [], none => .ok []
  | .object fields :: rest, failure =>
    match flatten "" fields with
    | .error e => .error e
    | .ok first =>
      match flattenAnswers query rest failure with
      | .error e => .error e
      | .ok more => .ok (first ++ more)
  | v :: _, _ => .error (.notObject query v.typeName)

/-- Names with values in ascending order, each name once with its last value. -/
def inOrder (entries : List (String × Value)) : List (String × Value) :=
  (Variables.empty.setAll entries).entries.mergeSort (fun a b => !decide (b.1 < a.1))

/-- The variables that a query finds in a document, in ascending order. The empty query takes the
document itself. -/
def loadVariables (document query : String) : Except LoadError (List (String × Value)) :=
  let query := if query = "" then "." else query
  match Query.read query with
  | .error e => .error (.badQuery query e)
  | .ok q =>
    match read document with
    | .error e => .error (.badDocument e)
    | .ok v =>
      let a := q.answers v
      (flattenAnswers query a.values a.failure).map inOrder

end ReversePolish.JsonValue

namespace ReversePolish.Context

/-- Set the variables that were found, and count them. If they could not be found, nothing is set.
-/
def receive (c : Context) :
    Except JsonValue.LoadError (List (String × Value)) → Context × Except JsonValue.LoadError Nat
  | .error e => (c, .error e)
  | .ok entries => ({ c with vars := c.vars.setAll entries }, .ok entries.length)

/-- Set the variables that a query finds in a document, and count them. -/
def loadVariables (c : Context) (document query : String) :
    Context × Except JsonValue.LoadError Nat :=
  c.receive (JsonValue.loadVariables document query)

end ReversePolish.Context
