import ReversePolish.Json.Printer
import ReversePolish.Query.Part

/-!
Queries on JSON values.

A query turns a value into any number of values, in order, and may break off with an error after
some of them. Queries select parts of values, go through all items, are chained and listed, and
build arrays and objects.

This is a part of the query language only, the part that takes a document to pieces and puts objects
together. Of the functions there are `empty` and `error`; every other function is answered with the
error that it is not defined, and so is every bound value, since nothing binds any. Of arithmetic
there are the signs. Whatever else the language has cannot be read as a query here.
-/

namespace ReversePolish

/-- A query. -/
inductive Query where
  /-- No query at all, which cannot be run. -/
  | missing
  /-- The value itself. -/
  | identity
  /-- The value and all values inside it. -/
  | everything
  | literal (v : JsonValue)
  /-- The part of `target` that `key` stands for. -/
  | select (target key : Query)
  /-- The part of `target` between two places. -/
  | range (target start stop : Query)
  /-- All items or fields of `target`, one after the other. -/
  | each (target : Query)
  /-- A number with its sign turned around. -/
  | negate (q : Query)
  /-- A number as it is. -/
  | plus (q : Query)
  /-- What a query makes before it breaks off, if it does. -/
  | attempt (q : Query)
  /-- All that `next` makes of all that `first` makes of the value. -/
  | pipe (first next : Query)
  /-- All that `first` makes of the value, then all that `second` does. -/
  | both (first second : Query)
  /-- An array of all that the query makes. -/
  | array (q : Query)
  /-- Objects with these names and contents. -/
  | object (fields : List (Query × Query))
  /-- A function by its name. -/
  | call (name : String) (arguments : List Query)
  /-- A bound value by its name. -/
  | reference (name : String)

/-- Why a query breaks off. -/
inductive QueryError where
  | missing
  | part (e : JsonValue.PartError)
  | notIterable (v : JsonValue)
  | notName (v : JsonValue)
  | notNumber (operation : String) (v : JsonValue)
  | raised (v : JsonValue)
  | undefinedFunction (name : String) (arity : Nat)
  | undefinedReference (name : String)

/-- The words for a part that there cannot be. -/
def JsonValue.PartError.message : JsonValue.PartError → String
  | .notObject v => "expected an object but got: " ++ v.describe
  | .notArray v => "expected an array but got: " ++ v.describe
  | .notName v => "expected a string for object key but got: " ++ v.describe
  | .notPlace v => "expected a number for indexing an array but got: " ++ v.describe
  | .notTextPlace v => "expected a number for indexing a string but got: " ++ v.describe
  | .noRange v => "expected \"start\" and \"end\" for slicing but got: " ++ v.describe

/-- The words for a query that breaks off. -/
def QueryError.message : QueryError → String
  | .missing => "missing query (try \".\")"
  | .part e => e.message
  | .notIterable v => "cannot iterate over: " ++ v.describe
  | .notName v => "expected a string for object key but got: " ++ v.describe
  | .notNumber operation v => "cannot " ++ operation ++ ": " ++ v.describe
  | .raised (.string s) => "error: " ++ s
  | .raised v => "error: " ++ String.ofList v.compact
  | .undefinedFunction name arity => "function not defined: " ++ name ++ "/" ++ toString arity
  | .undefinedReference name => "variable not defined: " ++ name

/-- The values that a query made, and the error that ended it if one did. -/
structure Answers where
  values : List JsonValue
  failure : Option QueryError

namespace Answers

def one (v : JsonValue) : Answers :=
  ⟨[v], none⟩

def fail (e : QueryError) : Answers :=
  ⟨[], some e⟩

/-- One list of answers after another; the second comes only if the first did not break off. -/
def append (a b : Answers) : Answers :=
  match a.failure with
  | some _ => a
  | none => ⟨a.values ++ b.values, b.failure⟩

/-- Make further answers of each answer, up to the first that breaks off. -/
def bind (a : Answers) (f : JsonValue → Answers) : Answers :=
  a.values.foldr (fun v rest => (f v).append rest) ⟨[], a.failure⟩

/-- The answer that a part of a value is. -/
def ofPart : Except JsonValue.PartError JsonValue → Answers
  | .ok v => one v
  | .error e => fail (.part e)

end Answers

namespace Query

/-- All items of an array, or all contents of an object in the order of their names. -/
def parts (v : JsonValue) : Answers :=
  match v.parts? with
  | some items => ⟨items, none⟩
  | none => .fail (.notIterable v)

/-- A number with its sign turned around. -/
def negated? : JsonValue → Option JsonValue
  | .integer i => some (.integer (-i))
  | .wide i => some (.wide (-i))
  | .number x => some (.number x.neg)
  | _ => none

/-- A number as it is. -/
def number? : JsonValue → Option JsonValue
  | .integer i => some (.integer i)
  | .wide i => some (.wide i)
  | .number x => some (.number x)
  | _ => none

/-- What an operation on numbers makes of a value. -/
def onNumber (operation : String) (f : JsonValue → Option JsonValue) (v : JsonValue) : Answers :=
  match f v with
  | some w => .one w
  | none => .fail (.notNumber operation v)

/-- The object with these names and contents. Of two fields with one name the later counts, and of
two names that are none the last is reported. -/
def objectOf (fields : List (JsonValue × JsonValue)) : Answers :=
  let put (made : Except QueryError (List (String × JsonValue))) (field : JsonValue × JsonValue) :
      Except QueryError (List (String × JsonValue)) :=
    match field.1 with
    | .string name => made.map (JsonValue.insertField name field.2)
    | other => .error (.notName other)
  match fields.foldl put (.ok []) with
  | .ok made => .one (.object made)
  | .error e => .fail e

mutual

/-- What a query makes of a value. -/
def run : Query → JsonValue → Answers
  | .missing, _ => .fail .missing
  | .identity, v => .one v
  | .everything, v => ⟨v.within, none⟩
  | .literal x, _ => .one x
  | .select target key, v =>
    (run key v).bind (fun k => (run target v).bind (fun t => .ofPart (t.part k)))
  | .range target start stop, v =>
    (run start v).bind (fun first =>
      (run stop v).bind (fun last =>
        (run target v).bind (fun t => .ofPart (t.range first last))))
  | .each target, v => (run target v).bind parts
  | .negate q, v => (run q v).bind (onNumber "negate" negated?)
  | .plus q, v => (run q v).bind (onNumber "plus" number?)
  | .attempt q, v => ⟨(run q v).values, none⟩
  | .pipe first next, v => (run first v).bind (run next)
  | .both first second, v => (run first v).append (run second v)
  | .array q, v =>
    match run q v with
    | ⟨items, none⟩ => .one (.array items)
    | ⟨_, some e⟩ => .fail e
  | .object fields, v => runFields fields v []
  | .call "empty" [], _ => ⟨[], none⟩
  | .call "error" [], v => .fail (.raised v)
  | .call "error" [message], v => (run message v).bind (fun m => .fail (.raised m))
  | .call name arguments, _ => .fail (.undefinedFunction name arguments.length)
  | .reference name, _ => .fail (.undefinedReference name)

/-- The objects made of a value by the fields still to come, after the fields made before, which are
held last one first. -/
def runFields : List (Query × Query) → JsonValue → List (JsonValue × JsonValue) → Answers
  | [], _, made => objectOf made.reverse
  | (name, content) :: rest, v, made =>
    (run name v).bind (fun n => (run content v).bind (fun x => runFields rest v ((n, x) :: made)))

end

mutual

/-- The first part of a query that is missing: a function that it calls, or a value that it names,
and that there is not. -/
def undefined? : Query → Option QueryError
  | .missing => some .missing
  | .identity | .everything | .literal _ => none
  | .select target key => undefined? key <|> undefined? target
  | .range target start stop => undefined? start <|> undefined? stop <|> undefined? target
  | .each q | .negate q | .plus q | .attempt q | .array q => undefined? q
  | .pipe first next | .both first next => undefined? first <|> undefined? next
  | .object fields => undefinedIn? fields
  | .call "empty" [] | .call "error" [] => none
  | .call "error" [message] => undefined? message
  | .call name arguments => some (.undefinedFunction name arguments.length)
  | .reference name => some (.undefinedReference name)

/-- The same among the fields of an object. -/
def undefinedIn? : List (Query × Query) → Option QueryError
  | [] => none
  | (name, content) :: rest => undefined? name <|> undefined? content <|> undefinedIn? rest

end

/-- The answers of a query. What is not defined is found before anything is answered. -/
def answers (q : Query) (v : JsonValue) : Answers :=
  match q.undefined? with
  | some e => .fail e
  | none => q.run v

end Query

end ReversePolish
