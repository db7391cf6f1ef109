import ReversePolish.Json.Variables
import ReversePolish.Proofs.Variables
import Mathlib.Data.List.Forall2
import Mathlib.Data.List.Nodup

/-!
The order in which the fields of objects are visited when variables are loaded.

Fields are kept in ascending order and visited in this order, but nothing about an object says that
they have to be. Here a `VisitingOrder` rearranges the fields of all objects that a query yields, at
every depth, and `loadVisiting` loads the variables in this order. Visited in another order, an
object still gives the same values to the same names (`flatten_reordered`), so loading fails or
succeeds as before and sets the same names.

The values may differ, because two paths into an object may have one name: a field called `a.b`
and a field `b` inside of `a`. The name is left with the value that is visited last, and each of the
values can be made the last one (`exists_reordered_concat`). So the variables are the same for all
orders if and only if they are `Settled`: the last object that has a name gives it one value only.

Between reading and setting there are the answers of a query, and the order matters to nothing but
these. So all this holds whatever was answered, in any language of queries (`collect_order`).
-/

namespace ReversePolish.JsonValue

/-! ## Other orders -/

mutual

/-- A value with the fields of its objects rearranged. Arrays hold no variables, and the objects in
them are not visited. -/
inductive Reordered : JsonValue → JsonValue → Prop
  | refl (v : JsonValue) : Reordered v v
  | object {fields others : List (String × JsonValue)} :
    FieldsReordered fields others → Reordered (.object fields) (.object others)

/-- Fields in another order, and rearranged themselves. -/
inductive FieldsReordered : List (String × JsonValue) → List (String × JsonValue) → Prop
  | nil : FieldsReordered [] []
  | cons (name : String) {v w : JsonValue} {fields others : List (String × JsonValue)} :
    Reordered v w → FieldsReordered fields others →
    FieldsReordered ((name, v) :: fields) ((name, w) :: others)
  | swap (a b : String × JsonValue) (fields : List (String × JsonValue)) :
    FieldsReordered (a :: b :: fields) (b :: a :: fields)
  | trans {fields others more : List (String × JsonValue)} :
    FieldsReordered fields others → FieldsReordered others more → FieldsReordered fields more

end

theorem FieldsReordered.of_perm {fields others : List (String × JsonValue)}
    (perm : fields.Perm others) : FieldsReordered fields others := by
  induction perm with
  | nil => exact .nil
  | cons field _ ih => exact .cons field.1 (.refl _) ih
  | swap a b fields => exact .swap b a fields
  | trans _ _ first second => exact .trans first second

theorem FieldsReordered.refl (fields : List (String × JsonValue)) : FieldsReordered fields fields :=
  .of_perm (.refl fields)

/-- A field may be visited last. -/
theorem FieldsReordered.concat (name : String) {v w : JsonValue}
    {fields others : List (String × JsonValue)} (here : Reordered v w)
    (there : FieldsReordered fields others) :
    FieldsReordered ((name, v) :: fields) (others ++ [(name, w)]) :=
  .trans (.cons name here there) (.of_perm (List.perm_append_singleton _ _).symm)

/-- An order in which to visit the fields of objects that are yielded one after the other. The same
object may be visited in different orders at different times. -/
structure VisitingOrder where
  visit : List JsonValue → List JsonValue
  reordered : ∀ values, List.Forall₂ Reordered values (visit values)

/-- The order in which the fields are kept. -/
def VisitingOrder.kept : VisitingOrder where
  visit := id
  reordered _ := List.forall₂_same.mpr (fun v _ => .refl v)

mutual

/-- A value with the fields of its objects from the last to the first. -/
def reversed : JsonValue → JsonValue
  | .object fields => .object (reversedFields fields)
  | v => v

def reversedFields : List (String × JsonValue) → List (String × JsonValue)
  | [] => []
  | (name, v) :: rest => reversedFields rest ++ [(name, v.reversed)]

end

mutual

theorem reordered_reversed : (v : JsonValue) → Reordered v v.reversed
  | .object fields => .object (reordered_reversedFields fields)
  | .null | .bool _ | .number _ | .integer _ | .wide _ | .string _ | .array _ => .refl _

theorem reordered_reversedFields :
    (fields : List (String × JsonValue)) → FieldsReordered fields (reversedFields fields)
  | [] => .nil
  | (name, v) :: rest => .concat name (reordered_reversed v) (reordered_reversedFields rest)

end

/-- The opposite order at every depth. -/
def VisitingOrder.backward : VisitingOrder where
  visit := List.map reversed
  reordered _ := List.forall₂_map_right_iff.mpr
    (List.forall₂_same.mpr (fun v _ => reordered_reversed v))

theorem VisitingOrder.exists_visit {values others : List JsonValue}
    (reordered : List.Forall₂ Reordered values others) :
    ∃ o : VisitingOrder, o.visit values = others := by
  classical
  refine ⟨⟨fun vs => if vs = values then others else vs, fun vs => ?_⟩, if_pos rfl⟩
  split
  · rename_i same
    rwa [same]
  · exact kept.reordered vs

/-- Load the variables that a query finds in a document, with the fields of objects visited in some
order. -/
def loadVisiting (o : VisitingOrder) (document query : String) :
    Except LoadError (List (String × Value)) :=
  let query := if query = "" then "." else query
  match Query.read query with
  | .error e => .error (.badQuery query e)
  | .ok q =>
    match read document with
    | .error e => .error (.badDocument e)
    | .ok v =>
      let a := q.answers v
      (flattenAnswers query (o.visit a.values) a.failure).map inOrder

theorem loadVisiting_kept (document query : String) :
    loadVisiting .kept document query = loadVariables document query :=
  rfl

/-! ## Answers -/

/-- The query that is run. The empty one takes the document itself. -/
def effective (query : String) : String :=
  if query = "" then "." else query

/-- The answers to a query, if the query and the document can be read. -/
def ask (document query : String) : Except LoadError Answers :=
  match Query.read query with
  | .error e => .error (.badQuery query e)
  | .ok q =>
    match read document with
    | .error e => .error (.badDocument e)
    | .ok v => .ok (q.answers v)

/-- The variables of what was answered, in ascending order. -/
def collect (o : VisitingOrder) (query : String) :
    Except LoadError Answers → Except LoadError (List (String × Value))
  | .error e => .error e
  | .ok a => (flattenAnswers query (o.visit a.values) a.failure).map inOrder

/-- Between reading and setting there are only the answers. -/
theorem loadVisiting_eq_collect (o : VisitingOrder) (document query : String) :
    loadVisiting o document query =
      collect o (effective query) (ask document (effective query)) := by
  unfold loadVisiting ask
  dsimp only [effective]
  cases Query.read (if query = "" then "." else query) with
  | error e => rfl
  | ok q => cases read document <;> rfl

theorem loadVariables_eq_collect (document query : String) :
    loadVariables document query =
      collect .kept (effective query) (ask document (effective query)) := by
  rw [← loadVisiting_kept, loadVisiting_eq_collect]

/-! ## The variables of an object -/

/-- Two attempts that both fail, or both succeed with results that belong together. -/
inductive Agree {α : Type} (R : α → α → Prop) : Except LoadError α → Except LoadError α → Prop
  | failed (e e' : LoadError) : Agree R (.error e) (.error e')
  | succeeded {a b : α} : R a b → Agree R (.ok a) (.ok b)

namespace Agree

variable {α β : Type} {R : α → α → Prop} {x y z : Except LoadError α}

theorem refl (reflexive : ∀ a, R a a) (x : Except LoadError α) : Agree R x x :=
  match x with
  | .error e => .failed e e
  | .ok a => .succeeded (reflexive a)

theorem symm (symmetric : ∀ {a b}, R a b → R b a) : Agree R x y → Agree R y x
  | .failed e e' => .failed e' e
  | .succeeded related => .succeeded (symmetric related)

theorem trans (transitive : ∀ {a b c}, R a b → R b c → R a c) :
    Agree R x y → Agree R y z → Agree R x z
  | .failed e _, .failed _ e' => .failed e e'
  | .succeeded first, .succeeded second => .succeeded (transitive first second)

theorem map {S : β → β → Prop} {f : α → β} (related : ∀ {a b}, R a b → S (f a) (f b)) :
    Agree R x y → Agree S (x.map f) (y.map f)
  | .failed e e' => .failed e e'
  | .succeeded h => .succeeded (related h)

theorem toOption_eq : Agree (· = ·) x y → x.toOption = y.toOption
  | .failed _ _ => rfl
  | .succeeded same => congrArg some same

end Agree

/-- One attempt after another. -/
def both (x y : Except LoadError (List (String × Value))) :
    Except LoadError (List (String × Value)) :=
  match x with
  | .error e => .error e
  | .ok first =>
    match y with
    | .error e => .error e
    | .ok more => .ok (first ++ more)

theorem flatten_cons (outer name : String) (v : JsonValue) (rest : List (String × JsonValue)) :
    flatten outer ((name, v) :: rest) =
      both (flattenValue (joinName outer name) v) (flatten outer rest) := by
  rw [flatten]
  rfl

theorem both_assoc (x y z : Except LoadError (List (String × Value))) :
    both (both x y) z = both x (both y z) := by
  cases x with
  | error e => rfl
  | ok first =>
      cases y with
      | error e => rfl
      | ok second =>
          cases z with
          | error e => rfl
          | ok third => exact congrArg Except.ok (List.append_assoc first second third)

theorem flatten_append (outer : String) (fields more : List (String × JsonValue)) :
    flatten outer (fields ++ more) = both (flatten outer fields) (flatten outer more) := by
  induction fields with
  | nil =>
      rw [List.nil_append, flatten]
      cases flatten outer more <;> rfl
  | cons field rest ih =>
      obtain ⟨name, v⟩ := field
      rw [List.cons_append, flatten_cons, flatten_cons, ih, both_assoc]

theorem both_eq_ok {x y : Except LoadError (List (String × Value))}
    {entries : List (String × Value)} (done : both x y = .ok entries) :
    ∃ first more, x = .ok first ∧ y = .ok more ∧ entries = first ++ more := by
  cases x with
  | error e => cases done
  | ok first =>
      cases y with
      | error e => cases done
      | ok more =>
          cases done
          exact ⟨first, more, rfl, rfl, rfl⟩

theorem Agree.both {x x' y y' : Except LoadError (List (String × Value))}
    (first : Agree List.Perm x x') (more : Agree List.Perm y y') :
    Agree List.Perm (both x y) (both x' y') := by
  cases first with
  | failed e e' => exact .failed e e'
  | succeeded first =>
      cases more with
      | failed e e' => exact .failed e e'
      | succeeded more => exact .succeeded (first.append more)

theorem agree_both_left_comm (x y z : Except LoadError (List (String × Value))) :
    Agree List.Perm (both x (both y z)) (both y (both x z)) := by
  cases x with
  | error e =>
      cases y with
      | error e' => exact .failed e e'
      | ok second => exact .failed e e
  | ok first =>
      cases y with
      | error e => exact .failed e e
      | ok second =>
          cases z with
          | error e => exact .failed e e
          | ok third =>
              refine .succeeded ?_
              rw [← List.append_assoc, ← List.append_assoc]
              exact List.perm_append_comm.append_right third

mutual

theorem flattenValue_reordered {v w : JsonValue} (name : String) :
    Reordered v w → Agree List.Perm (flattenValue name v) (flattenValue name w)
  | .refl _ => .refl List.Perm.refl _
  | .object fields => by
      rw [flattenValue, flattenValue]
      exact flatten_reordered name fields

/-- In another order an object has the same variables, if it has any. -/
theorem flatten_reordered {fields others : List (String × JsonValue)} (outer : String) :
    FieldsReordered fields others →
      Agree List.Perm (flatten outer fields) (flatten outer others)
  | .nil => .refl List.Perm.refl _
  | .cons name here there => by
      rw [flatten_cons, flatten_cons]
      exact (flattenValue_reordered _ here).both (flatten_reordered outer there)
  | .swap a b fields => by
      obtain ⟨name, v⟩ := a
      obtain ⟨name', w⟩ := b
      rw [flatten_cons, flatten_cons, flatten_cons, flatten_cons]
      exact agree_both_left_comm _ _ _
  | .trans first second =>
      (flatten_reordered outer first).trans List.Perm.trans (flatten_reordered outer second)

end

mutual

theorem exists_reordered_value {name : String} {v : JsonValue} {entries : List (String × Value)}
    {entry : String × Value} (flat : flattenValue name v = .ok entries) (member : entry ∈ entries) :
    ∃ w front, Reordered v w ∧ flattenValue name w = .ok (front ++ [entry]) := by
  cases v with
  | object fields =>
      rw [flattenValue] at flat
      obtain ⟨others, front, reordered, last⟩ := exists_reordered_concat flat member
      refine ⟨.object others, front, .object reordered, ?_⟩
      rwa [flattenValue]
  | number x | integer i | bool b =>
      refine ⟨_, [], .refl _, ?_⟩
      rw [flattenValue] at flat
      cases flat
      rw [List.mem_singleton.mp member, flattenValue]
      rfl
  | wide i | null | string s | array items =>
      rw [flattenValue] at flat
      cases flat

/-- Each variable of an object comes last in some order. -/
theorem exists_reordered_concat {outer : String} {fields : List (String × JsonValue)}
    {entries : List (String × Value)} {entry : String × Value}
    (flat : flatten outer fields = .ok entries) (member : entry ∈ entries) :
    ∃ others front, FieldsReordered fields others ∧
      flatten outer others = .ok (front ++ [entry]) := by
  match fields with
  | [] =>
      rw [flatten] at flat
      cases flat
      cases member
  | (name, v) :: rest =>
      rw [flatten_cons] at flat
      obtain ⟨first, more, here, there, rfl⟩ := both_eq_ok flat
      rcases List.mem_append.mp member with member | member
      · obtain ⟨w, front, reordered, last⟩ := exists_reordered_value here member
        refine ⟨rest ++ [(name, w)], more ++ front, .concat name reordered (.refl rest), ?_⟩
        rw [flatten_append, flatten_cons, flatten, there, last]
        simp [both]
      · obtain ⟨others, front, reordered, last⟩ := exists_reordered_concat there member
        refine ⟨(name, v) :: others, first ++ front, .cons name (.refl v) reordered, ?_⟩
        rw [flatten_cons, here, last]
        simp [both]

end

/-! ## The variables of all objects -/

theorem flattenAnswers_cons {query : String} {v : JsonValue} {rest : List JsonValue}
    {failure : Option QueryError} {entries : List (String × Value)}
    (flat : flattenAnswers query (v :: rest) failure = .ok entries) :
    ∃ fields first more, v = .object fields ∧ flatten "" fields = .ok first ∧
      flattenAnswers query rest failure = .ok more ∧ entries = first ++ more := by
  cases v with
  | object fields =>
      obtain ⟨first, more, here, there, joined⟩ := both_eq_ok flat
      exact ⟨fields, first, more, rfl, here, there, joined⟩
  | null | bool | number | integer | wide | string | array => cases flat

theorem flattenAnswers_reordered (query : String) {values others : List JsonValue}
    (failure : Option QueryError) (reordered : List.Forall₂ Reordered values others) :
    Agree List.Perm (flattenAnswers query values failure)
      (flattenAnswers query others failure) := by
  induction reordered with
  | nil => exact .refl List.Perm.refl _
  | @cons v w _ _ here _ ih =>
      cases here with
      | object fields => exact (flatten_reordered "" fields).both ih
      | refl =>
          cases v with
          | object fields => exact Agree.both (.refl List.Perm.refl (flatten "" fields)) ih
          | null | bool | number | integer | wide | string | array => exact .failed _ _

/-- The names that an object gives values to, with the values. -/
def settings (v : JsonValue) : List (String × Value) :=
  match flattenValue "" v with
  | .error _ => []
  | .ok entries => entries

/-- The values that an object gives to a name. -/
def given (name : String) (v : JsonValue) : List Value :=
  (v.settings.filter (·.1 = name)).map (·.2)

/-- The values that a name is given by the last object that has it. -/
def lastGiven (name : String) : List JsonValue → List Value
  | [] => []
  | v :: rest => if lastGiven name rest = [] then given name v else lastGiven name rest

/-- The last object with a name gives it one value. -/
def OneValue (name : String) (values : List JsonValue) : Prop :=
  ∀ x ∈ lastGiven name values, ∀ y ∈ lastGiven name values, x = y

instance (name : String) (values : List JsonValue) : Decidable (OneValue name values) :=
  inferInstanceAs (Decidable (∀ x ∈ lastGiven name values, ∀ y ∈ lastGiven name values, x = y))

theorem settings_object {fields : List (String × JsonValue)} {entries : List (String × Value)}
    (flat : flatten "" fields = .ok entries) : settings (.object fields) = entries := by
  rw [settings, flattenValue, flat]

theorem mem_given_iff {name : String} {v : JsonValue} {x : Value} :
    x ∈ given name v ↔ (name, x) ∈ v.settings := by
  simp [given]

theorem given_reordered (name : String) {v w : JsonValue} (reordered : Reordered v w) :
    (given name v).Perm (given name w) := by
  have agree := flattenValue_reordered "" reordered
  unfold given settings
  generalize flattenValue "" v = x at agree ⊢
  generalize flattenValue "" w = y at agree ⊢
  cases agree with
  | failed e e' => exact .refl _
  | succeeded perm => exact (perm.filter _).map _

theorem lastGiven_reordered (name : String) {values others : List JsonValue}
    (reordered : List.Forall₂ Reordered values others) :
    (lastGiven name values).Perm (lastGiven name others) := by
  induction reordered with
  | nil => exact .refl _
  | cons here _ ih =>
      unfold lastGiven
      split
      · rename_i none
        rw [none] at ih
        rw [if_pos ih.nil_eq.symm]
        exact given_reordered name here
      · rename_i some
        rw [if_neg (fun none => some (none ▸ ih).eq_nil)]
        exact ih

section Answers

variable {query : String} {values : List JsonValue} {failure : Option QueryError}
  {entries : List (String × Value)} {name : String} {x : Value}

theorem mem_of_mem_lastGiven (flat : flattenAnswers query values failure = .ok entries)
    (member : x ∈ lastGiven name values) : (name, x) ∈ entries := by
  induction values generalizing entries with
  | nil => cases member
  | cons v rest ih =>
      obtain ⟨fields, first, more, rfl, here, there, rfl⟩ := flattenAnswers_cons flat
      unfold lastGiven at member
      split at member
      · rw [mem_given_iff, settings_object here] at member
        exact List.mem_append_left more member
      · exact List.mem_append_right first (ih there member)

/-- A name is left with a value that the last object with the name gives to it. -/
theorem mem_lastGiven_of_get? (flat : flattenAnswers query values failure = .ok entries)
    (found : (Variables.empty.setAll entries).get? name = some x) : x ∈ lastGiven name values := by
  induction values generalizing entries with
  | nil =>
      cases failure with
      | some e => cases flat
      | none =>
          cases flat
          cases found
  | cons v rest ih =>
      obtain ⟨fields, first, more, rfl, here, there, rfl⟩ := flattenAnswers_cons flat
      rw [Variables.get?_setAll_append] at found
      unfold lastGiven
      rcases Option.or_eq_some_iff.mp found with later | ⟨none, now⟩
      · have member := ih there later
        rwa [if_neg (List.ne_nil_of_mem member)]
      · have absent : lastGiven name rest = [] := by
          rw [List.eq_nil_iff_forall_not_mem]
          intro y member
          have set := Variables.isSome_get?_setAll (mem_of_mem_lastGiven there member)
          rw [none] at set
          cases set
        rw [if_pos absent, mem_given_iff, settings_object here]
        exact Variables.mem_of_get?_setAll now

/-- Each of these values is what the name is left with in some order. -/
theorem exists_reordered_get? (flat : flattenAnswers query values failure = .ok entries)
    (member : x ∈ lastGiven name values) :
    ∃ others entries', List.Forall₂ Reordered values others ∧
      flattenAnswers query others failure = .ok entries' ∧
      (Variables.empty.setAll entries').get? name = some x := by
  induction values generalizing entries with
  | nil => cases member
  | cons v rest ih =>
      obtain ⟨fields, first, more, rfl, here, there, rfl⟩ := flattenAnswers_cons flat
      unfold lastGiven at member
      split at member
      · rename_i absent
        rw [mem_given_iff, settings_object here] at member
        obtain ⟨others, front, reordered, last⟩ := exists_reordered_concat here member
        have unset : (Variables.empty.setAll more).get? name = none := by
          rw [Option.eq_none_iff_forall_ne_some]
          intro y found
          have later := mem_lastGiven_of_get? there found
          rw [absent] at later
          cases later
        refine ⟨.object others :: rest, front ++ [(name, x)] ++ more,
          .cons (.object reordered) (VisitingOrder.kept.reordered rest), ?_, ?_⟩
        · rw [flattenAnswers, last, there]
        · rw [Variables.get?_setAll_append, unset, Variables.get?_setAll_concat, Option.none_or]
      · obtain ⟨others, entries', reordered, flat', found⟩ := ih there member
        refine ⟨.object fields :: others, first ++ entries', .cons (.refl _) reordered, ?_, ?_⟩
        · rw [flattenAnswers, here, flat']
        · rw [Variables.get?_setAll_append, found, Option.some_or]

end Answers

/-! ## Tables in ascending order -/

theorem mem_inOrder_iff {entries : List (String × Value)} {name : String} {x : Value} :
    (name, x) ∈ inOrder entries ↔ (Variables.empty.setAll entries).get? name = some x := by
  rw [inOrder, List.mem_mergeSort]
  exact Variables.mem_entries_iff (Variables.nodup_names_setAll (t := .empty) .nil entries)

theorem mem_names_inOrder_iff {entries : List (String × Value)} {name : String} :
    name ∈ (inOrder entries).map (·.1) ↔ name ∈ entries.map (·.1) := by
  constructor
  · rintro listed
    obtain ⟨⟨name, x⟩, member, rfl⟩ := List.mem_map.mp listed
    exact List.mem_map_of_mem (Variables.mem_of_get?_setAll (mem_inOrder_iff.mp member))
  · intro listed
    obtain ⟨⟨name, x⟩, member, rfl⟩ := List.mem_map.mp listed
    obtain ⟨y, found⟩ := Option.isSome_iff_exists.mp (Variables.isSome_get?_setAll member)
    exact List.mem_map_of_mem (f := (·.1)) (mem_inOrder_iff.mpr found)

theorem pairwise_inOrder (entries : List (String × Value)) :
    (inOrder entries).Pairwise (fun a b => a.1 ≤ b.1) :=
  Variables.pairwise_mergeSort_names _

theorem nodup_names_inOrder (entries : List (String × Value)) :
    ((inOrder entries).map (·.1)).Nodup :=
  ((List.mergeSort_perm _ _).map _).nodup_iff.mpr
    (Variables.nodup_names_setAll (t := .empty) .nil entries)

/-- A table is determined by what its names stand for. -/
theorem inOrder_congr {entries others : List (String × Value)}
    (same : ∀ name, (Variables.empty.setAll entries).get? name =
      (Variables.empty.setAll others).get? name) : inOrder entries = inOrder others := by
  have perm : (inOrder entries).Perm (inOrder others) := by
    rw [List.perm_ext_iff_of_nodup (List.Nodup.of_map _ (nodup_names_inOrder entries))
      (List.Nodup.of_map _ (nodup_names_inOrder others))]
    rintro ⟨name, x⟩
    rw [mem_inOrder_iff, mem_inOrder_iff, same]
  refine perm.eq_of_pairwise ?_ (pairwise_inOrder entries) (pairwise_inOrder others)
  rintro ⟨name, x⟩ ⟨name', y⟩ here there below above
  obtain rfl : name = name' := String.le_antisymm below above
  rw [mem_inOrder_iff, same] at here
  rw [mem_inOrder_iff, here] at there
  cases there
  rfl

theorem names_inOrder_perm {entries others : List (String × Value)} (perm : entries.Perm others) :
    (inOrder entries).map (·.1) = (inOrder others).map (·.1) := by
  have names : ((inOrder entries).map (·.1)).Perm ((inOrder others).map (·.1)) := by
    rw [List.perm_ext_iff_of_nodup (nodup_names_inOrder entries) (nodup_names_inOrder others)]
    intro name
    rw [mem_names_inOrder_iff, mem_names_inOrder_iff]
    exact (perm.map _).mem_iff
  exact names.eq_of_pairwise (fun _ _ _ _ => String.le_antisymm)
    (List.pairwise_map.mpr (pairwise_inOrder entries))
    (List.pairwise_map.mpr (pairwise_inOrder others))

/-! ## Settled values -/

/-- What a query yields from a document. -/
def yielded (document query : String) : List JsonValue :=
  match Query.read (if query = "" then "." else query), read document with
  | .ok q, .ok v => (q.answers v).values
  | _, _ => []

/-- Every name is given one value by the last object that has it. -/
def Settled (document query : String) : Prop :=
  ∀ name, OneValue name (yielded document query)

/-- All names that are given values. -/
def givenNames (values : List JsonValue) : List String :=
  values.flatMap (fun v => v.settings.map (·.1))

theorem mem_givenNames_of_mem_lastGiven {name : String} {x : Value} {values : List JsonValue}
    (member : x ∈ lastGiven name values) : name ∈ givenNames values := by
  induction values with
  | nil => cases member
  | cons v rest ih =>
      unfold lastGiven at member
      rw [givenNames, List.flatMap_cons, List.mem_append]
      split at member
      · exact .inl (List.mem_map_of_mem (f := (·.1)) (mem_given_iff.mp member))
      · exact .inr (ih member)

-- only the names of variables can be given two values
instance (document query : String) : Decidable (Settled document query) :=
  decidable_of_iff
    (∀ name ∈ givenNames (yielded document query), OneValue name (yielded document query))
    ⟨fun settled name x here => settled name (mem_givenNames_of_mem_lastGiven here) x here,
      fun settled name _ => settled name⟩

/-! ## Loading -/

section Orders

variable {query : String} {values first second : List JsonValue} {failure : Option QueryError}

theorem flattenAnswers_agree (firstOrder : List.Forall₂ Reordered values first)
    (secondOrder : List.Forall₂ Reordered values second) :
    Agree List.Perm (flattenAnswers query first failure) (flattenAnswers query second failure) :=
  ((flattenAnswers_reordered query failure firstOrder).symm List.Perm.symm).trans List.Perm.trans
    (flattenAnswers_reordered query failure secondOrder)

/-- Where the last object with a name gives it one value, both orders leave the name with it. -/
theorem get?_of_settled (firstOrder : List.Forall₂ Reordered values first)
    (secondOrder : List.Forall₂ Reordered values second) {name : String}
    (settled : OneValue name values) {entries others : List (String × Value)}
    (flat : flattenAnswers query first failure = .ok entries)
    (flat' : flattenAnswers query second failure = .ok others) (perm : entries.Perm others)
    {x : Value}
    (found : (Variables.empty.setAll entries).get? name = some x) :
    (Variables.empty.setAll others).get? name = some x := by
  have member := perm.mem_iff.mp (Variables.mem_of_get?_setAll found)
  obtain ⟨y, found'⟩ := Option.isSome_iff_exists.mp (Variables.isSome_get?_setAll member)
  have here := (lastGiven_reordered name firstOrder).mem_iff.mpr (mem_lastGiven_of_get? flat found)
  have there :=
    (lastGiven_reordered name secondOrder).mem_iff.mpr (mem_lastGiven_of_get? flat' found')
  rw [found', settled x here y there]

/-- Where every name is given one value, the tables of two orders are the same. -/
theorem map_inOrder_agree (firstOrder : List.Forall₂ Reordered values first)
    (secondOrder : List.Forall₂ Reordered values second)
    (settled : ∀ name, OneValue name values) :
    Agree (· = ·) ((flattenAnswers query first failure).map inOrder)
      ((flattenAnswers query second failure).map inOrder) := by
  have agree : Agree List.Perm (flattenAnswers query first failure)
    (flattenAnswers query second failure) := flattenAnswers_agree firstOrder secondOrder
  generalize flat : flattenAnswers query first failure = x at agree ⊢
  generalize flat' : flattenAnswers query second failure = y at agree ⊢
  cases agree with
  | failed e e' => exact .failed e e'
  | succeeded perm =>
      refine .succeeded (inOrder_congr fun name => Option.ext fun x => ⟨?_, ?_⟩)
      · exact get?_of_settled firstOrder secondOrder (settled name) flat flat' perm
      · exact get?_of_settled secondOrder firstOrder (settled name) flat' flat perm.symm

/-- Where a name is given two values, some order sets another table. -/
theorem exists_other_table {table : List (String × Value)} {name : String} {x y : Value}
    (loaded : (flattenAnswers query values failure).map inOrder = .ok table)
    (here : x ∈ lastGiven name values) (there : y ∈ lastGiven name values) (differ : x ≠ y) :
    ∃ others table', List.Forall₂ Reordered values others ∧
      (flattenAnswers query others failure).map inOrder = .ok table' ∧ table ≠ table' := by
  cases flat : flattenAnswers query values failure with
  | error e =>
      rw [flat] at loaded
      cases loaded
  | ok entries =>
      rw [flat] at loaded
      cases loaded
      obtain ⟨z, member, other⟩ : ∃ z ∈ lastGiven name values,
          (Variables.empty.setAll entries).get? name ≠ some z := by
        by_cases set : (Variables.empty.setAll entries).get? name = some x
        · refine ⟨y, there, ?_⟩
          rw [set]
          exact fun same => differ (Option.some.inj same)
        · exact ⟨x, here, set⟩
      obtain ⟨others, entries', reordered, flat', found⟩ := exists_reordered_get? flat member
      refine ⟨others, inOrder entries', reordered, ?_, fun same => other ?_⟩
      · rw [flat']
        rfl
      · rw [← mem_inOrder_iff] at found ⊢
        rwa [same]

end Orders

/-- The values that were answered. -/
def answered : Except LoadError Answers → List JsonValue
  | .error _ => []
  | .ok a => a.values

/-- Whatever was answered, in any two orders of visiting fields it fails for both or has variables
of the same names for both. If every name is given one value by the last object that has it, the
values are the same as well; otherwise there is an order that gives others. -/
theorem collect_order (query : String) (asked : Except LoadError Answers) :
    (∀ o₁ o₂ : VisitingOrder,
      Agree (fun t u => t.map (·.1) = u.map (·.1)) (collect o₁ query asked)
        (collect o₂ query asked)) ∧
    ((∀ name, OneValue name (answered asked)) → ∀ o₁ o₂ : VisitingOrder,
      Agree (· = ·) (collect o₁ query asked) (collect o₂ query asked)) ∧
    (¬ (∀ name, OneValue name (answered asked)) → ∀ t, collect .kept query asked = .ok t →
      ∃ o u, collect o query asked = .ok u ∧ t ≠ u) := by
  cases asked with
  | error e => exact ⟨fun _ _ => .failed e e, fun _ _ _ => .failed e e, nofun⟩
  | ok a =>
      refine ⟨fun o₁ o₂ => ?_, fun settled o₁ o₂ => ?_, fun unsettled t loaded => ?_⟩
      · exact (flattenAnswers_agree (o₁.reordered _) (o₂.reordered _)).map names_inOrder_perm
      · exact map_inOrder_agree (o₁.reordered _) (o₂.reordered _) settled
      · unfold OneValue at unsettled
        push Not at unsettled
        obtain ⟨name, x, here, y, there, differ⟩ := unsettled
        obtain ⟨others, table, reordered, loaded', other⟩ :=
          exists_other_table loaded here there differ
        obtain ⟨o, rfl⟩ := VisitingOrder.exists_visit reordered
        exact ⟨o, table, loaded', other⟩

theorem yielded_eq_answered (document query : String) :
    yielded document query = answered (ask document (effective query)) := by
  unfold yielded ask
  dsimp only [effective]
  cases Query.read (if query = "" then "." else query) with
  | error e => rfl
  | ok q => cases read document <;> rfl

/-- In any two orders of visiting fields, loading variables fails for both or succeeds for both, and
sets the same names. If every name is given one value by the last object that has it, it sets the
same values as well; otherwise there is an order that sets others. -/
theorem loadVisiting_order (document query : String) :
    (∀ o₁ o₂ : VisitingOrder,
      Agree (fun t u => t.map (·.1) = u.map (·.1)) (loadVisiting o₁ document query)
        (loadVisiting o₂ document query)) ∧
    (Settled document query → ∀ o₁ o₂ : VisitingOrder,
      Agree (· = ·) (loadVisiting o₁ document query) (loadVisiting o₂ document query)) ∧
    (¬ Settled document query → ∀ t, loadVariables document query = .ok t →
      ∃ o u, loadVisiting o document query = .ok u ∧ t ≠ u) := by
  unfold Settled
  rw [yielded_eq_answered, loadVariables_eq_collect]
  simp only [loadVisiting_eq_collect]
  exact collect_order (effective query) (ask document (effective query))

/-- A later object may give the name another value. -/
theorem loadVisiting_order_later :
    let document := "[\x7b\"a.b\":1\x7d,\x7b\"a\":\x7b\"b\":2\x7d\x7d]"
    Settled document ".[]" ∧
      (loadVisiting .kept document ".[]").toOption = some [("a.b", .ofInt 2)] ∧
      Agree (· = ·) (loadVisiting .kept document ".[]")
        (loadVisiting .backward document ".[]") := by
  intro document
  have settled : Settled document ".[]" := by decide +kernel
  obtain ⟨-, same, -⟩ := loadVisiting_order document ".[]"
  exact ⟨settled, by decide +kernel, same settled _ _⟩

/-- One object with two paths of one name is loaded in two ways. -/
theorem loadVisiting_backward_differs :
    let document := "\x7b\"a\":\x7b\"b\":2\x7d,\"a.b\":1\x7d"
    (loadVisiting .kept document "").toOption = some [("a.b", .ofInt 1)] ∧
      (loadVisiting .backward document "").toOption = some [("a.b", .ofInt 2)] ∧
      ¬ Agree (· = ·) (loadVisiting .kept document "") (loadVisiting .backward document "") := by
  intro document
  have kept : (loadVisiting .kept document "").toOption = some [("a.b", .ofInt 1)] := by
    decide +kernel
  have backward : (loadVisiting .backward document "").toOption = some [("a.b", .ofInt 2)] := by
    decide +kernel
  refine ⟨kept, backward, fun agree => ?_⟩
  have same := agree.toOption_eq
  rw [kept, backward] at same
  exact absurd same (by decide +kernel)

end ReversePolish.JsonValue
