import ReversePolish.Json.Basic

/-!
Parts of JSON values: what a value holds under a name, at a place, or between two places.

Places count from zero, and negative ones from the end. What is not there is `null`, and so is every
part of `null`.
-/

namespace ReversePolish.JsonValue

/-! ## Comparing -/

mutual

/-- Whether two values are equal. Numbers are compared by what they stand for. -/
def same : JsonValue → JsonValue → Bool
  | .null, .null => true
  | .bool a, .bool b => a == b
  | .number x, .number y => x.eq y
  | .number x, .integer i | .number x, .wide i => x.eq (.ofInt i)
  | .integer i, .number x | .wide i, .number x => x.eq (.ofInt i)
  | .integer i, .integer j | .integer i, .wide j => i == j
  | .wide i, .integer j | .wide i, .wide j => i == j
  | .string s, .string t => s == t
  | .array items, .array others => sameItems items others
  | .object fields, .object others => sameFields fields others
  | _, _ => false

/-- Whether two lists have equal items. -/
def sameItems : List JsonValue → List JsonValue → Bool
  | [], [] => true
  | v :: rest, w :: others => same v w && sameItems rest others
  | _, _ => false

/-- Whether two lists have equal fields. -/
def sameFields : List (String × JsonValue) → List (String × JsonValue) → Bool
  | [], [] => true
  | (name, v) :: rest, (other, w) :: others =>
    name == other && same v w && sameFields rest others
  | _, _ => false

end

/-! ## Places -/

/-- An integer as a place. What needs more than 64 bits is the first or the last of all places. -/
def clampCount (i : Int) : Int :=
  if i < Floating.leastCount then Floating.leastCount
  else if i < Floating.countLimit then i
  else Floating.countLimit - 1

/-- A number as a place: a fraction is cut off, and what is beyond all places is the first or the
last of them. The limit of the places itself, which is the last number that is compared before the
conversion, turns into the first place. -/
def wholePart (x : Double) : Int :=
  match x.integerPart? with
  | some i => if i = Floating.countLimit then Floating.leastCount else clampCount i
  | none => if x.isNaN || x.isNegative then Floating.leastCount else Floating.countLimit - 1

/-- The place that a value stands for, if it is a number. -/
def place? : JsonValue → Option Int
  | .integer i => some i
  | .wide i => some (clampCount i)
  | .number x => some (wholePart x)
  | _ => none

/-- What stands at a place of a list. -/
def itemAt? {α : Type} (items : List α) (place : Int) : Option α :=
  let i := if place < 0 then place + items.length else place
  if i < 0 then none else items[i.toNat]?

/-- A place as one of a list of some length, at `least` or behind. -/
def clampPlace (least length : Nat) (place : Int) : Nat :=
  let i := if place < 0 then place + length else place
  min length (max least i.toNat)

/-- The items between two places; without a place it goes from the start or to the end. -/
def between {α : Type} (items : List α) (start stop : Option Int) : List α :=
  let first := (start.map (clampPlace 0 items.length)).getD 0
  let last := (stop.map (clampPlace first items.length)).getD items.length
  (items.drop first).take (last - first)

/-- The places at which a list stands inside another one. -/
def occurrences (items pattern : List JsonValue) : List Nat :=
  if pattern.isEmpty then []
  else
    (List.range (items.length + 1 - pattern.length)).filter
      (fun i => sameItems ((items.drop i).take pattern.length) pattern)

/-! ## Parts -/

/-- Why a value has no such part. -/
inductive PartError where
  | notObject (v : JsonValue)
  | notArray (v : JsonValue)
  | notName (v : JsonValue)
  /-- No place in an array. -/
  | notPlace (v : JsonValue)
  /-- No place in a text. -/
  | notTextPlace (v : JsonValue)
  | noRange (v : JsonValue)

/-- A bound of a range: `null` is none. -/
def bound? (refuse : JsonValue → PartError) : JsonValue → Except PartError (Option Int)
  | .null => .ok none
  | v =>
    match v.place? with
    | some i => .ok (some i)
    | none => .error (refuse v)

/-- The part of an array or a text between two places. -/
def range (v start stop : JsonValue) : Except PartError JsonValue :=
  let cut {α : Type} (items : List α) (refuse : JsonValue → PartError) :
      Except PartError (List α) := do
    let first ← bound? refuse start
    let last ← bound? refuse stop
    pure (between items first last)
  match v with
  | .null => .ok .null
  | .array items => (cut items .notPlace).map .array
  | .string s => (cut s.toList .notTextPlace).map (fun cs => .string (String.ofList cs))
  | v => .error (.notArray v)

/-- The part of a value that a key stands for: a field for a name, an item or character for a place,
the places of an array inside another one, and a range for an object that has its bounds. -/
def part (v key : JsonValue) : Except PartError JsonValue :=
  match key, v with
  | .string _, .null | .integer _, .null | .wide _, .null | .number _, .null | .array _, .null
  | .object _, .null => .ok .null
  | .string name, .object fields => .ok ((fields.lookup name).getD .null)
  | .string _, v => .error (.notObject v)
  | .array pattern, .array items =>
    .ok (.array ((occurrences items pattern).map (fun (i : Nat) => .integer i)))
  | .array _, v => .error (.notArray v)
  | .object bounds, v =>
    match bounds.lookup "start", bounds.lookup "end" with
    | some start, some stop => range v start stop
    | _, _ => .error (.noRange (.object bounds))
  | key, v =>
    match key.place?, v with
    | some i, .array items => .ok ((itemAt? items i).getD .null)
    | some i, .string s =>
      .ok (((itemAt? s.toList i).map (fun c => .string (String.ofList [c]))).getD .null)
    | some _, v => .error (.notArray v)
    | none, .array _ => .error (.notPlace key)
    | none, .string _ => .error (.notTextPlace key)
    | none, _ => .error (.notName key)

/-- All items of an array, or all contents of an object in the order of their names. -/
def parts? : JsonValue → Option (List JsonValue)
  | .array items => some items
  | .object fields => some (fields.map (·.2))
  | _ => none

mutual

/-- A value, and all values inside it. -/
def within : JsonValue → List JsonValue
  | .array items => .array items :: withinItems items
  | .object fields => .object fields :: withinFields fields
  | v => [v]

/-- All values inside the items of an array. -/
def withinItems : List JsonValue → List JsonValue
  | [] => []
  | v :: rest => within v ++ withinItems rest

/-- All values inside the fields of an object. -/
def withinFields : List (String × JsonValue) → List JsonValue
  | [] => []
  | (_, v) :: rest => within v ++ withinFields rest

end

end ReversePolish.JsonValue
