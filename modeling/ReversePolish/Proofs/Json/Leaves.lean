import ReversePolish.Proofs.Json.Order
import ReversePolish.Proofs.Literal

/-!
Objects by their leaves.

A leaf of an object is what stands in it at the end of a path of names and is no object itself.
Whatever the names are, an object is flattened leaf by leaf, in their order, up to the first that
has no value (`flatten_eq`). In this the names on a path are joined one by one, and an empty name at
the outside counts as no name at all; but where no name is empty the name of a leaf is its path with
dots in between (`pathName_eq`), and where no name has a dot in it the path can be read off the name
(`intercalate_injOn`). So an object with such names has one variable for each leaf.

A leaf has a value if it is a truth value, a double or an integer of 64 bits. Integers that need
more are numbers of queries as well, but they are refused.
-/

namespace ReversePolish.JsonValue

/-! ## Leaves -/

mutual

/-- The leaves of a value, each with the names on the way to it. -/
def leaves : JsonValue → List (List String × JsonValue)
  | .object fields => fieldLeaves fields
  | v => [([], v)]

/-- The leaves behind the fields of an object. -/
def fieldLeaves : List (String × JsonValue) → List (List String × JsonValue)
  | [] => []
  | (name, v) :: rest =>
    v.leaves.map (fun leaf => (name :: leaf.1, leaf.2)) ++ fieldLeaves rest

end

/-- The value of a leaf. -/
def leafValue? : JsonValue → Option Value
  | .number x => some x.convert
  | .integer i => some (.ofInt i)
  | .bool b => some (.ofBool b)
  | _ => none

/-- The name of a path inside of an object. -/
def pathName (outer : String) (path : List String) : String :=
  path.foldl joinName outer

/-- The variable that a leaf stands for. -/
def leafVariable (outer : String) (leaf : List String × JsonValue) :
    Except LoadError (String × Value) :=
  match leafValue? leaf.2 with
  | some v => .ok (pathName outer leaf.1, v)
  | none => .error (.notNumber (pathName outer leaf.1) leaf.2.typeName)

theorem both_eq_bind (x y : Except LoadError (List (String × Value))) :
    both x y = (do
      let first ← x
      let more ← y
      pure (first ++ more)) := by
  cases x with
  | error e => rfl
  | ok first => cases y <;> rfl

mutual

theorem flattenValue_eq (name : String) (v : JsonValue) :
    flattenValue name v = v.leaves.mapM (leafVariable name) := by
  cases v with
  | object fields =>
      rw [flattenValue, leaves]
      exact flatten_eq name fields
  | number x | integer i | bool b | wide i | null | string s | array items =>
      rw [flattenValue]
      rfl

/-- An object is flattened leaf by leaf. -/
theorem flatten_eq (outer : String) (fields : List (String × JsonValue)) :
    flatten outer fields = (fieldLeaves fields).mapM (leafVariable outer) := by
  match fields with
  | [] =>
      rw [flatten]
      rfl
  | (name, v) :: rest =>
      rw [flatten_cons, flattenValue_eq, flatten_eq outer rest, fieldLeaves, List.mapM_append,
        List.mapM_map, both_eq_bind]
      rfl

end

/-- What flattening comes to: a variable for each leaf, or the first leaf without a value. -/
inductive Flattened (outer : String) (leaves : List (List String × JsonValue)) :
    Except LoadError (List (String × Value)) → Prop
  | complete {entries : List (String × Value)} :
    List.Forall₂ (fun leaf entry => entry.1 = pathName outer leaf.1 ∧
      leafValue? leaf.2 = some entry.2) leaves entries →
    Flattened outer leaves (.ok entries)
  | refused {leaf : List String × JsonValue} : leaf ∈ leaves → leafValue? leaf.2 = none →
    Flattened outer leaves (.error (.notNumber (pathName outer leaf.1) leaf.2.typeName))

theorem flattened_mapM (outer : String) (leaves : List (List String × JsonValue)) :
    Flattened outer leaves (leaves.mapM (leafVariable outer)) := by
  induction leaves with
  | nil => exact .complete .nil
  | cons leaf rest ih =>
      rw [List.mapM_cons]
      cases value : leafValue? leaf.2 with
      | none =>
          have here : leafVariable outer leaf =
              .error (.notNumber (pathName outer leaf.1) leaf.2.typeName) := by
            rw [leafVariable, value]
          rw [here]
          exact .refused List.mem_cons_self value
      | some v =>
          have here : leafVariable outer leaf = .ok (pathName outer leaf.1, v) := by
            rw [leafVariable, value]
          rw [here]
          generalize rest.mapM (leafVariable outer) = others at ih ⊢
          cases ih with
          | complete each => exact .complete (.cons ⟨rfl, value⟩ each)
          | refused member none => exact .refused (List.mem_cons_of_mem leaf member) none

theorem flattened_flatten (outer : String) (fields : List (String × JsonValue)) :
    Flattened outer (fieldLeaves fields) (flatten outer fields) := by
  rw [flatten_eq]
  exact flattened_mapM outer _

/-- Flattening fails if and only if some leaf has no value. -/
theorem Flattened.error_iff {outer : String} {leaves : List (List String × JsonValue)}
    {answer : Except LoadError (List (String × Value))}
    (flattened : Flattened outer leaves answer) :
    (∃ e, answer = .error e) ↔ ∃ leaf ∈ leaves, leafValue? leaf.2 = none := by
  cases flattened with
  | refused member none => exact ⟨fun _ => ⟨_, member, none⟩, fun _ => ⟨_, rfl⟩⟩
  | complete each =>
      refine ⟨nofun, ?_⟩
      rintro ⟨leaf, member, missing⟩
      exfalso
      induction each with
      | nil => cases member
      | cons here _ ih =>
          rcases List.mem_cons.mp member with rfl | there
          · rw [here.2] at missing
            cases missing
          · exact ih there

/-! ## Names of paths -/

theorem pathName_of_ne_empty {outer : String} (named : outer ≠ "") (path : List String) :
    pathName outer path = ".".intercalate (outer :: path) := by
  induction path generalizing outer with
  | nil => exact String.intercalate_singleton.symm
  | cons name rest ih =>
      have joined : joinName outer name = outer ++ "." ++ name := if_neg named
      have inside : outer ++ "." ++ name ≠ "" := by
        intro empty
        rw [String.append_eq_empty_iff, String.append_eq_empty_iff] at empty
        exact named empty.1.1
      rw [pathName, List.foldl_cons, joined, ← pathName, ih inside]
      cases rest with
      | nil =>
          rw [String.intercalate_singleton, String.intercalate_cons_cons,
            String.intercalate_singleton]
      | cons next rest =>
          rw [String.intercalate_cons_cons, String.intercalate_cons_cons,
            String.intercalate_cons_cons]
          simp only [String.append_assoc]

/-- The name of a path is the path with dots in between. -/
theorem pathName_eq {path : List String} (named : ∀ name ∈ path, name ≠ "") :
    pathName "" path = ".".intercalate path := by
  cases path with
  | nil => rfl
  | cons name rest => exact pathName_of_ne_empty (named name List.mem_cons_self) rest

/-- A path of names without dots can be read off its name. -/
theorem intercalate_injOn {path other : List String} (nonempty : path ≠ []) (nonempty' : other ≠ [])
    (dotless : ∀ name ∈ path, '.' ∉ name.toList) (dotless' : ∀ name ∈ other, '.' ∉ name.toList)
    (same : ".".intercalate path = ".".intercalate other) : path = other := by
  have split {path : List String} (nonempty : path ≠ [])
      (dotless : ∀ name ∈ path, '.' ∉ name.toList) :
      (".".intercalate path).toList.splitOn '.' = path.map String.toList := by
    rw [String.toList_intercalate]
    refine List.splitOn_intercalate '.' (fun cs member => ?_) (by simpa using nonempty)
    obtain ⟨name, listed, rfl⟩ := List.mem_map.mp member
    exact dotless name listed
  have chars : path.map String.toList = other.map String.toList := by
    rw [← split nonempty dotless, same, split nonempty' dotless']
  exact List.map_injective_iff.mpr (fun _ _ same => String.toList_injective same) chars

/-! ## Plain names -/

/-- A name that is not empty and has no dot. -/
def plainName (name : String) : Bool :=
  name != "" && !name.toList.contains '.'

mutual

/-- All names inside of a value are plain, and no object has one twice. -/
def plain : JsonValue → Bool
  | .object fields => plainFields fields
  | _ => true

/-- All names of fields and inside of them are plain, and no object has one twice. -/
def plainFields : List (String × JsonValue) → Bool
  | [] => true
  | (name, v) :: rest =>
    plainName name && !(rest.map (·.1)).contains name && v.plain && plainFields rest

end

theorem plainFields_cons {name : String} {v : JsonValue} {rest : List (String × JsonValue)} :
    plainFields ((name, v) :: rest) = true ↔
      plainName name = true ∧ name ∉ rest.map (·.1) ∧ v.plain = true ∧
        plainFields rest = true := by
  rw [plainFields]
  simp [and_assoc]

theorem exists_of_mem_fieldLeaves {fields : List (String × JsonValue)}
    {leaf : List String × JsonValue} (member : leaf ∈ fieldLeaves fields) :
    ∃ name path, leaf.1 = name :: path ∧ name ∈ fields.map (·.1) := by
  induction fields with
  | nil =>
      rw [fieldLeaves] at member
      cases member
  | cons field rest ih =>
      obtain ⟨name, v⟩ := field
      rw [fieldLeaves, List.mem_append] at member
      rcases member with here | there
      · obtain ⟨inner, -, rfl⟩ := List.mem_map.mp here
        exact ⟨name, inner.1, rfl, List.mem_cons_self⟩
      · obtain ⟨other, path, first, listed⟩ := ih there
        exact ⟨other, path, first, List.mem_cons_of_mem name listed⟩

mutual

theorem plainName_of_mem_leaves {v : JsonValue} (plain : v.plain = true)
    {leaf : List String × JsonValue} (member : leaf ∈ v.leaves) :
    ∀ name ∈ leaf.1, plainName name = true := by
  cases v with
  | object fields =>
      rw [leaves] at member
      rw [JsonValue.plain] at plain
      exact plainName_of_mem_fieldLeaves plain member
  | number | integer | bool | wide | null | string | array =>
      rw [leaves, List.mem_singleton] at member
      · rw [member]
        exact nofun
      · exact nofun

theorem plainName_of_mem_fieldLeaves {fields : List (String × JsonValue)}
    (plain : plainFields fields = true) {leaf : List String × JsonValue}
    (member : leaf ∈ fieldLeaves fields) : ∀ name ∈ leaf.1, plainName name = true := by
  match fields with
  | [] =>
      rw [fieldLeaves] at member
      cases member
  | (name, v) :: rest =>
      obtain ⟨named, -, inside, others⟩ := plainFields_cons.mp plain
      rw [fieldLeaves, List.mem_append] at member
      rcases member with here | there
      · obtain ⟨inner, member, rfl⟩ := List.mem_map.mp here
        exact List.forall_mem_cons.mpr ⟨named, plainName_of_mem_leaves inside member⟩
      · exact plainName_of_mem_fieldLeaves others there

end

mutual

theorem nodup_paths {v : JsonValue} (plain : v.plain = true) : (v.leaves.map (·.1)).Nodup := by
  cases v with
  | object fields =>
      rw [leaves]
      rw [JsonValue.plain] at plain
      exact nodup_fieldPaths plain
  | number | integer | bool | wide | null | string | array =>
      rw [leaves]
      · exact List.nodup_singleton _
      · exact nofun

/-- No two leaves of an object have the same path. -/
theorem nodup_fieldPaths {fields : List (String × JsonValue)} (plain : plainFields fields = true) :
    ((fieldLeaves fields).map (·.1)).Nodup := by
  match fields with
  | [] =>
      rw [fieldLeaves]
      exact .nil
  | (name, v) :: rest =>
      obtain ⟨-, fresh, inside, others⟩ := plainFields_cons.mp plain
      have first : (v.leaves.map (fun leaf => (name :: leaf.1, leaf.2))).map (·.1) =
          (v.leaves.map (·.1)).map (name :: ·) := by
        rw [List.map_map, List.map_map]
        rfl
      rw [fieldLeaves, List.map_append, first, List.nodup_append]
      refine ⟨(nodup_paths inside).map List.cons_injective, nodup_fieldPaths others, ?_⟩
      rintro path here other there rfl
      obtain ⟨inner, -, rfl⟩ := List.mem_map.mp here
      obtain ⟨leaf, member, begins⟩ := List.mem_map.mp there
      obtain ⟨other, path, begins', listed⟩ := exists_of_mem_fieldLeaves member
      rw [begins] at begins'
      exact fresh ((List.cons.inj begins').1 ▸ listed)

end

/-- The names of the leaves are distinct. -/
theorem nodup_names_leaves {fields : List (String × JsonValue)}
    (plain : plainFields fields = true) :
    ((fieldLeaves fields).map (fun leaf => ".".intercalate leaf.1)).Nodup := by
  have dotless {leaf : List String × JsonValue} (member : leaf ∈ fieldLeaves fields) :
      ∀ name ∈ leaf.1, '.' ∉ name.toList := by
    intro name listed
    have named := plainName_of_mem_fieldLeaves plain member name listed
    simp only [plainName, Bool.and_eq_true, Bool.not_eq_true', List.contains_eq_mem,
      decide_eq_false_iff_not] at named
    exact named.2
  have nonempty {leaf : List String × JsonValue} (member : leaf ∈ fieldLeaves fields) :
      leaf.1 ≠ [] := by
    obtain ⟨name, path, begins, -⟩ := exists_of_mem_fieldLeaves member
    rw [begins]
    exact List.cons_ne_nil name path
  have names : (fieldLeaves fields).map (fun leaf => ".".intercalate leaf.1) =
      ((fieldLeaves fields).map (·.1)).map (".".intercalate ·) := by
    rw [List.map_map]
    rfl
  rw [names]
  refine (nodup_fieldPaths plain).map_on fun path here other there same => ?_
  obtain ⟨leaf, member, rfl⟩ := List.mem_map.mp here
  obtain ⟨leaf', member', rfl⟩ := List.mem_map.mp there
  exact intercalate_injOn (nonempty member) (nonempty member') (dotless member) (dotless member')
    same

/-! ## Values of leaves -/

/-- The value that a number or a truth value stands for. Numbers are rounded once. -/
inductive Denotes : JsonValue → Value → Prop
  | finite {negative : Bool} {k : Fin (binary64.top + 1)} {v : Value} : k.val ≠ binary64.top →
    Value.RoundedFrom negative (binary64.magnitude k) v → Denotes (.number (.signed negative k)) v
  | infinite (negative : Bool) : Denotes (.number (.infinity negative)) (.infinity negative)
  | nan : Denotes (.number .nan) .nan
  | integer {i : Int} {v : Value} : Value.RoundedFrom (i < 0) |(i : ℚ)| v → Denotes (.integer i) v
  | wide {i : Int} {v : Value} : Value.RoundedFrom (i < 0) |(i : ℚ)| v → Denotes (.wide i) v
  | bool (b : Bool) : Denotes (.bool b) (if b then 1 else 0)

theorem roundedFrom_ofInt (i : Int) : Value.RoundedFrom (i < 0) |(i : ℚ)| (.ofInt i) := by
  have rounded := Value.roundedFrom_ofRatio (i < 0) i.natAbs Nat.one_pos
  rw [Nat.cast_one, div_one, Nat.cast_natAbs, Int.cast_abs] at rounded
  exact rounded

theorem denotes_convert (x : Double) : Denotes (.number x) x.convert := by
  cases x with
  | nan => exact .nan
  | signed negative k =>
      rw [Floating.convert]
      split
      · rename_i last
        obtain rfl : k = Fin.last binary64.top := Fin.ext last
        exact .infinite negative
      · rename_i finite
        exact .finite finite (Value.roundedFrom_ofRatio negative _
          (Nat.cast_pos.mp binary64.one_pos))

theorem denotes_of_leafValue? {v : JsonValue} {x : Value} (value : leafValue? v = some x) :
    Denotes v x := by
  cases v with
  | number y =>
      cases value
      exact denotes_convert y
  | integer i =>
      cases value
      exact .integer (roundedFrom_ofInt i)
  | bool b =>
      cases value
      exact .bool b
  | wide | null | string | array | object => cases value

/-- An integer that is held apart because it may need more than 64 bits. -/
def isWide : JsonValue → Bool
  | .wide _ => true
  | _ => false

/-- A number or a truth value. -/
def Numeric (v : JsonValue) : Prop :=
  v.kind = "number" ∨ v.kind = "boolean"

instance (v : JsonValue) : Decidable v.Numeric :=
  inferInstanceAs (Decidable (v.kind = "number" ∨ v.kind = "boolean"))

theorem Numeric.isWide_iff {v : JsonValue} (numeric : v.Numeric) :
    v.isWide = true ↔ leafValue? v = none := by
  cases v with
  | number | integer | bool => exact ⟨nofun, nofun⟩
  | wide i => exact ⟨fun _ => rfl, fun _ => rfl⟩
  | null | string | array | object => exact absurd numeric (by simp [Numeric, kind])

theorem typeName_of_isWide {v : JsonValue} (wide : v.isWide = true) :
    v.typeName = "*big.Int" := by
  cases v with
  | wide i => rfl
  | number | integer | bool | null | string | array | object => cases wide

/-! ## One variable for each leaf -/

/-- An object in which no name is empty, has a dot or comes twice, and whose leaves are all numbers
or truth values, has leaves of different names. If no leaf is an integer that is held apart, the
object is flattened into one variable for each leaf, called by its path with dots in between, with
the value of the leaf rounded once; none is lost when they are put into a table and sorted.
Otherwise flattening is refused for such an integer. -/
theorem flatten_faithful {fields : List (String × JsonValue)} (plain : plainFields fields = true)
    (numeric : ∀ leaf ∈ fieldLeaves fields, leaf.2.Numeric) :
    ((fieldLeaves fields).map (fun leaf => ".".intercalate leaf.1)).Nodup ∧
    ((∀ leaf ∈ fieldLeaves fields, leaf.2.isWide = false) →
      ∃ entries, flatten "" fields = .ok entries ∧
        List.Forall₂ (fun leaf entry => entry.1 = ".".intercalate leaf.1 ∧ Denotes leaf.2 entry.2)
          (fieldLeaves fields) entries ∧
        (Variables.empty.setAll entries).entries = entries ∧
        (inOrder entries).Perm entries ∧
        (inOrder entries).length = (fieldLeaves fields).length) ∧
    ((∃ leaf ∈ fieldLeaves fields, leaf.2.isWide = true) →
      ∃ leaf ∈ fieldLeaves fields, leaf.2.isWide = true ∧
        flatten "" fields = .error (.notNumber (".".intercalate leaf.1) "*big.Int")) := by
  have distinct := nodup_names_leaves plain
  have named {leaf : List String × JsonValue} (member : leaf ∈ fieldLeaves fields) :
      pathName "" leaf.1 = ".".intercalate leaf.1 := by
    refine pathName_eq fun name listed => ?_
    have plain := plainName_of_mem_fieldLeaves plain member name listed
    rw [plainName, Bool.and_eq_true, bne_iff_ne] at plain
    exact plain.1
  have outcome := flattened_flatten "" fields
  have failed := outcome.error_iff
  generalize flatten "" fields = answer at outcome failed ⊢
  cases outcome with
  | @refused leaf member none =>
      have wide := (numeric leaf member).isWide_iff.mpr none
      refine ⟨distinct, fun narrow => ?_, fun _ => ⟨leaf, member, wide, ?_⟩⟩
      · rw [narrow leaf member] at wide
        cases wide
      · rw [named member, typeName_of_isWide wide]
  | @complete entries each =>
      have each : List.Forall₂
          (fun leaf entry => entry.1 = ".".intercalate leaf.1 ∧ Denotes leaf.2 entry.2)
          (fieldLeaves fields) entries := by
        refine ((List.forall₂_and_left _ _).mpr ⟨fun leaf member => named member, each⟩).imp ?_
        rintro leaf entry ⟨same, called, value⟩
        exact ⟨called.trans same, denotes_of_leafValue? value⟩
      have called : (fieldLeaves fields).map (fun leaf => ".".intercalate leaf.1) =
          entries.map (·.1) := by
        rw [← List.forall₂_eq_eq_eq, List.forall₂_map_left_iff, List.forall₂_map_right_iff]
        exact each.imp fun _ _ here => here.1.symm
      have kept : (Variables.empty.setAll entries).entries = entries :=
        Variables.entries_setAll (fun _ _ => List.not_mem_nil) (called ▸ distinct)
      have sorted : (inOrder entries).Perm entries := by
        rw [inOrder, kept]
        exact List.mergeSort_perm _ _
      refine ⟨distinct, fun _ => ⟨entries, rfl, each, kept, sorted,
        sorted.length_eq.trans each.length_eq.symm⟩, ?_⟩
      rintro ⟨leaf, member, wide⟩
      obtain ⟨e, error⟩ := failed.mpr ⟨leaf, member, (numeric leaf member).isWide_iff.mp wide⟩
      cases error

/-- Leaves at three depths, one of them beside the object with the same first name. -/
theorem flatten_faithful_nested :
    let fields := [("a", JsonValue.object [("b", .bool true), ("c", .object [("b", .integer 3)])]),
      ("ab", .number (.ofRatio true 5 2)), ("empty", .object [])]
    plainFields fields = true ∧ (∀ leaf ∈ fieldLeaves fields, leaf.2.Numeric) ∧
      (fieldLeaves fields).map (fun leaf => ".".intercalate leaf.1) = ["a.b", "a.c.b", "ab"] ∧
      ∃ entries, flatten "" fields = .ok entries ∧ (inOrder entries).length = 3 := by
  intro fields
  have plain : plainFields fields = true := by decide +kernel
  have numeric : ∀ leaf ∈ fieldLeaves fields, leaf.2.Numeric := by decide +kernel
  obtain ⟨-, flat, -⟩ := flatten_faithful plain numeric
  obtain ⟨entries, done, -, -, -, count⟩ := flat (by decide +kernel)
  exact ⟨plain, numeric, by decide +kernel, entries, done, count⟩

/-- A number that needs more than 64 bits is refused as no number. -/
theorem flatten_wide_refused :
    let fields := [("a", JsonValue.wide 9223372036854775808)]
    plainFields fields = true ∧ (∀ leaf ∈ fieldLeaves fields, leaf.2.Numeric) ∧
      flatten "" fields = .error (.notNumber "a" "*big.Int") ∧
      (loadVariables "\x7b\x7d" "\x7ba: 9223372036854775808\x7d").toOption = none := by
  refine ⟨by decide +kernel, by decide +kernel, ?_, by decide +kernel⟩
  rw [flatten_eq]
  rfl

end ReversePolish.JsonValue
