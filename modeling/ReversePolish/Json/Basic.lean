import ReversePolish.Value

/-!
JSON values.

Numbers of a document are doubles; a query may also produce integers, and holds those that need more
than 64 bits apart. The fields of an object are
kept in the ascending order of their names, each name once, which is the order in which they are
visited and written.
-/

namespace ReversePolish

/-- A JSON value. -/
inductive JsonValue where
  | null
  | bool (b : Bool)
  | number (x : Double)
  | integer (i : Int)
  /-- An integer that may be of any size. -/
  | wide (i : Int)
  | string (s : String)
  | array (items : List JsonValue)
  | object (fields : List (String × JsonValue))

namespace JsonValue

instance : Inhabited JsonValue := ⟨.null⟩

/-- Put a field into its place among fields in ascending order; a field of the same name gives way.
-/
def insertField (name : String) (v : JsonValue) :
    List (String × JsonValue) → List (String × JsonValue)
  | [] => [(name, v)]
  | field :: rest =>
    if name = field.1 then (name, v) :: rest
    else if name < field.1 then (name, v) :: field :: rest
    else field :: insertField name v rest

/-- The word that a query uses for the kind of a value. -/
def kind : JsonValue → String
  | .null => "null"
  | .bool _ => "boolean"
  | .number _ | .integer _ | .wide _ => "number"
  | .string _ => "string"
  | .array _ => "array"
  | .object _ => "object"

/-- The word that messages use for how a value is held. -/
def typeName : JsonValue → String
  | .null => "<nil>"
  | .bool _ => "bool"
  | .number _ => "float64"
  | .integer _ => "int"
  | .wide _ => "*big.Int"
  | .string _ => "string"
  | .array _ => "[]interface \x7b\x7d"
  | .object _ => "map[string]interface \x7b\x7d"

end JsonValue

end ReversePolish
