import ReversePolish.CommandLine.Options
import ReversePolish.Context
import ReversePolish.Yaml.Decoding

/-!
Configurations: what a calculator is set up with from a YAML file.

A configuration is a mapping with known keys; keys it does not know are ignored, and what is written
as nothing leaves the default.
-/

namespace ReversePolish

/-- The contents of a configuration file. -/
structure Config where
  strict : Bool := false
  trace : Bool := false
  logLevel : String := "info"
  maxIndex : Int := 0
  duplicatePolicy : String := ""
  advancedMath : Option Bool := none
  color : Option Bool := none
  /-- Variables in the ascending order of their names. -/
  vars : List (String × Value) := []
  jsonFile : String := ""
  jsonQuery : String := ""
  deriving DecidableEq, Repr

namespace Config

open Yaml

/-- Put what was read into its place, if there is something. -/
def store {α : Type} (c : Config) (read : Decoder (Option α)) (put : α → Config) :
    Decoder Config := do
  match ← read with
  | some a => pure (put a)
  | none => pure c

/-- Give a variable a value. -/
def setVariable (table : List (String × Value)) (name : String) (v : Value) :
    List (String × Value) :=
  table.filter (·.1 != name) ++ [(name, v)]

/-- Whether a node is nothing. -/
def isNothing : Node → Decoder Bool
  | .scalar _ tag _ | .sequence _ tag _ | .mapping _ tag _ => pure (tag = Scalar.null.tag)
  | .alias _ _ _ id => do
    match ← Decoder.target id with
    | .scalar _ tag _ | .sequence _ tag _ | .mapping _ tag _ => pure (tag = Scalar.null.tag)
    | .alias .. => pure false

/-- Tables of variables. A name without a value stands for zero; if it is taken over, that is so
only if it has no value yet. -/
def tableShape : Decoder.Shape (List (String × Value)) where
  target := "map[string]float32"
  fields := []
  put := fun takenOver table name n => do
    match ← Decoder.value n with
    | some v => pure (setVariable table name v)
    | none =>
      let keep := takenOver && (table.lookup name).isSome
      pure (if (← isNothing n) && !keep then setVariable table name 0 else table)

/-- Names in ascending order. -/
def byNameOrder (table : List (String × Value)) : List (String × Value) :=
  table.mergeSort (fun a b => !decide (b.1 < a.1))

/-- The part on JSON variables. -/
def jsonShape : Decoder.Shape Config where
  target := "main.JSONVarsConfig"
  fields := ["file", "query"]
  put := fun _ c name n =>
    match name with
    | "file" => c.store (Decoder.text n) (fun s => { c with jsonFile := s })
    | "query" => c.store (Decoder.text n) (fun s => { c with jsonQuery := s })
    | _ => pure c

/-- The whole configuration. -/
def shape (fuel : Nat) : Decoder.Shape Config where
  target := "main.Config"
  fields := ["strict", "trace", "log_level", "max_index", "duplicate_policy", "advanced_math",
    "color", "variables", "json_vars"]
  put := fun _ c name n =>
    match name with
    | "strict" => c.store (Decoder.bool false n) (fun b => { c with strict := b })
    | "trace" => c.store (Decoder.bool false n) (fun b => { c with trace := b })
    | "log_level" => c.store (Decoder.text n) (fun s => { c with logLevel := s })
    | "max_index" => c.store (Decoder.int n) (fun i => { c with maxIndex := i })
    | "duplicate_policy" => c.store (Decoder.text n) (fun s => { c with duplicatePolicy := s })
    | "advanced_math" => c.store (Decoder.bool true n) (fun b => { c with advancedMath := some b })
    | "color" => c.store (Decoder.bool true n) (fun b => { c with color := some b })
    | "variables" => do
      let table ← Decoder.mapping tableShape fuel [] n
      pure { c with vars := byNameOrder table }
    | "json_vars" => Decoder.mapping jsonShape fuel c n
    | _ => pure c

/-! ## Files -/

/-- Why a configuration is refused. -/
inductive Error where
  | malformed (e : Yaml.SyntaxError)
  | unreadable (e : Failure)
  | types (errors : List TypeError)
  | negativeMaxIndex (n : Int)
  | badPolicy (name : String)
  deriving DecidableEq, Repr

/-- The words for a refused configuration. -/
def Error.message : Error → String
  | .malformed e => "parsing config: yaml: " ++ e.message
  | .unreadable e => "parsing config: yaml: " ++ e.message
  | .types errors =>
    "parsing config: yaml: unmarshal errors:\n  " ++
      String.intercalate "\n  " (errors.map TypeError.message)
  | .negativeMaxIndex n => "max_index must not be negative (got " ++ toString n ++ ")"
  | .badPolicy name => Policy.unknownMessage name

/-- Refuse what has the right type and the wrong value. -/
def validate (c : Config) : Except Error Config :=
  if c.maxIndex < 0 then .error (.negativeMaxIndex c.maxIndex)
  else if (Policy.ofName? c.duplicatePolicy).isNone then .error (.badPolicy c.duplicatePolicy)
  else .ok c

/-- Read a configuration. -/
def parse (text : String) : Except Error Config :=
  let fuel := (text.utf8ByteSize + 2) * (text.utf8ByteSize + 2)
  match Document.read text with
  | .error e => .error (.malformed e)
  | .ok none => validate {}
  | .ok (some document) =>
    match document.decode (Decoder.mapping (shape fuel) fuel {}) with
    | .error e => .error (.unreadable e)
    | .ok (c, []) => c.validate
    | .ok (_, errors) => .error (.types errors)

/-! ## Use -/

/-- The configuration with what the command line asks for, which counts more. -/
def apply (c : Config) (o : CommandLine.Options) : Config :=
  { c with
    strict := c.strict || o.strict
    trace := c.trace || o.trace
    logLevel := if o.logLevel = "" then c.logLevel else o.logLevel
    jsonFile := if o.jsonFile = "" then c.jsonFile else o.jsonFile
    jsonQuery := if o.jsonQuery = "" then c.jsonQuery else o.jsonQuery }

/-- Whether output may be coloured. -/
def colorEnabled (c : Config) : Bool :=
  c.color.getD true

/-- What the context of a calculator is built with. -/
def contextOptions (c : Config) : ContextOptions :=
  { policy := (Policy.ofName? c.duplicatePolicy).getD .shadow
    maxIndex := c.maxIndex
    advanced := c.advancedMath.getD true }

/-- Set the variables of the configuration. -/
def seed (c : Config) (t : Variables) : Variables :=
  t.setAll c.vars

end Config

end ReversePolish
