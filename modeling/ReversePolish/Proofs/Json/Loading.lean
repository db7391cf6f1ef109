import ReversePolish.Proofs.Json.Leaves

/-!
Loading variables into a context: all of them, or none.

Between reading and setting there are the answers of a query, any number of them, and what can go
wrong is told by these alone (`Spoiled`): the query breaks off, or an answer is no object or has a
leaf without a value. It does not matter how many good objects came before, or how deep the leaf is
(`flattenAnswers_error_iff`). Otherwise the objects are united, where the later ones count more
(`union`), and the context receives the union in the ascending order of names (`Merged`).

Nothing here depends on the language of queries, so the answers may be any, and the fields of an
object may be visited in any order.
-/

namespace ReversePolish.JsonValue

/-! ## Failures -/

/-- A value that has no variables: it is no object, or some leaf in it has no value. -/
inductive Unfit (v : JsonValue) : Prop
  | notObject : v.kind ≠ "object" → Unfit v
  | notNumber {leaf : List String × JsonValue} :
    leaf ∈ v.leaves → leafValue? leaf.2 = none → Unfit v

/-- Nothing can be loaded from what was answered. -/
inductive Spoiled : Except LoadError Answers → Prop
  | unread (e : LoadError) : Spoiled (.error e)
  | failed {values : List JsonValue} (e : QueryError) : Spoiled (.ok ⟨values, some e⟩)
  | unfit {a : Answers} {v : JsonValue} : v ∈ a.values → Unfit v → Spoiled (.ok a)

theorem Agree.error_iff {α : Type} {R : α → α → Prop} {x y : Except LoadError α}
    (agree : Agree R x y) : (∃ e, x = .error e) ↔ ∃ e, y = .error e := by
  cases agree with
  | failed e e' => exact ⟨fun _ => ⟨e', rfl⟩, fun _ => ⟨e, rfl⟩⟩
  | succeeded => exact ⟨nofun, nofun⟩

theorem both_error_iff {x y : Except LoadError (List (String × Value))} :
    (∃ e, both x y = .error e) ↔ (∃ e, x = .error e) ∨ ∃ e, y = .error e := by
  cases x with
  | error e => exact ⟨fun _ => .inl ⟨e, rfl⟩, fun _ => ⟨e, rfl⟩⟩
  | ok first =>
      cases y with
      | error e => exact ⟨fun _ => .inr ⟨e, rfl⟩, fun _ => ⟨e, rfl⟩⟩
      | ok more => exact ⟨nofun, fun failed => failed.elim nofun nofun⟩

theorem unfit_object_iff {fields : List (String × JsonValue)} :
    Unfit (.object fields) ↔ ∃ e, flatten "" fields = .error e := by
  rw [(flattened_flatten "" fields).error_iff]
  constructor
  · intro unfit
    cases unfit with
    | notObject other => exact absurd rfl other
    | @notNumber leaf member none =>
        rw [leaves] at member
        exact ⟨leaf, member, none⟩
  · rintro ⟨leaf, member, none⟩
    refine .notNumber ?_ none
    rwa [leaves]

/-- The answers fail with the query, or with any one of them. -/
theorem flattenAnswers_error_iff (query : String) (values : List JsonValue)
    (failure : Option QueryError) :
    (∃ e, flattenAnswers query values failure = .error e) ↔
      (∃ e, failure = some e) ∨ ∃ v ∈ values, Unfit v := by
  induction values with
  | nil =>
      cases failure with
      | none => exact ⟨nofun, fun failed => failed.elim nofun nofun⟩
      | some e => exact ⟨fun _ => .inl ⟨e, rfl⟩, fun _ => ⟨.failed query e, rfl⟩⟩
  | cons v rest ih =>
      rw [List.exists_mem_cons_iff, or_left_comm, ← ih]
      cases v with
      | object fields =>
          rw [unfit_object_iff, ← both_error_iff]
          rfl
      | null | bool | number | integer | wide | string | array =>
          exact ⟨fun _ => .inl (.notObject (by simp [kind])), fun _ => ⟨_, rfl⟩⟩

theorem spoiled_ok_iff {a : Answers} :
    Spoiled (.ok a) ↔ (∃ e, a.failure = some e) ∨ ∃ v ∈ a.values, Unfit v := by
  constructor
  · intro spoiled
    cases spoiled with
    | failed e => exact .inl ⟨e, rfl⟩
    | unfit member unfit => exact .inr ⟨_, member, unfit⟩
  · rintro (⟨e, failed⟩ | ⟨v, member, unfit⟩)
    · obtain ⟨values, failure⟩ := a
      subst failed
      exact .failed e
    · exact .unfit member unfit

/-- Whether variables are found does not depend on the order in which the fields are visited. -/
theorem collect_error_iff (o : VisitingOrder) (query : String) (asked : Except LoadError Answers) :
    (∃ e, collect o query asked = .error e) ↔ Spoiled asked := by
  cases asked with
  | error e => exact ⟨fun _ => .unread e, fun _ => ⟨e, rfl⟩⟩
  | ok a =>
      -- the answers are judged as they came, and flattened as they are visited
      have agree := flattenAnswers_reordered query a.failure (o.reordered a.values)
      rw [spoiled_ok_iff, ← flattenAnswers_error_iff query, agree.error_iff, collect]
      cases flattenAnswers query (o.visit a.values) a.failure with
      | error e => exact ⟨fun _ => ⟨e, rfl⟩, fun _ => ⟨e, rfl⟩⟩
      | ok entries => exact ⟨nofun, nofun⟩

theorem collect_eq_ok {o : VisitingOrder} {query : String} {asked : Except LoadError Answers}
    {table : List (String × Value)} (found : collect o query asked = .ok table) :
    ∃ a entries, asked = .ok a ∧
      flattenAnswers query (o.visit a.values) a.failure = .ok entries ∧
      table = inOrder entries := by
  cases asked with
  | error e => cases found
  | ok a =>
      rw [collect] at found
      cases flat : flattenAnswers query (o.visit a.values) a.failure with
      | error e =>
          rw [flat] at found
          cases found
      | ok entries =>
          rw [flat] at found
          cases found
          exact ⟨a, entries, rfl, flat, rfl⟩

/-! ## Unions -/

/-- The values of all objects together. Where two objects have a name the later one counts, and
inside of one object the path that is visited last. -/
def union : List JsonValue → String → Option Value
  | [], _ => none
  | v :: rest, name => (union rest name).or (given name v).getLast?

theorem get?_setAll_answers {query : String} {values : List JsonValue}
    {failure : Option QueryError} {entries : List (String × Value)}
    (flat : flattenAnswers query values failure = .ok entries) (name : String) :
    (Variables.empty.setAll entries).get? name = union values name := by
  induction values generalizing entries with
  | nil =>
      cases failure with
      | some e => cases flat
      | none =>
          cases flat
          rfl
  | cons v rest ih =>
      obtain ⟨fields, first, more, rfl, here, there, rfl⟩ := flattenAnswers_cons flat
      rw [Variables.get?_setAll_append, ih there, Variables.get?_setAll_eq_getLast?, union, given,
        settings_object here]

/-- A table into which the values of a union were put. The names that it had are where they were,
and the new ones follow in ascending order. -/
structure Merged (before : Variables) (values : String → Option Value) (count : Nat)
    (after : Variables) : Prop where
  get? : ∀ name, after.get? name = (values name).or (before.get? name)
  names : ∃ names : List String, names.Pairwise (· < ·) ∧
    (∀ name, name ∈ names ↔ (values name).isSome = true) ∧ names.length = count ∧
    after.names = before.names ++ names.filter (· ∉ before.names)

theorem get?_setAll_inOrder (entries : List (String × Value)) (name : String) :
    (Variables.empty.setAll (inOrder entries)).get? name =
      (Variables.empty.setAll entries).get? name := by
  have kept : (Variables.empty.setAll (inOrder entries)).entries = inOrder entries :=
    Variables.entries_setAll (fun _ _ => List.not_mem_nil) (nodup_names_inOrder entries)
  -- without repetitions a table stands for its entries, whatever their order
  refine Option.ext fun x => ?_
  rw [← Variables.mem_entries_iff (Variables.nodup_names_setAll (t := .empty) .nil _), kept]
  exact mem_inOrder_iff

theorem pairwise_lt_names_inOrder (entries : List (String × Value)) :
    ((inOrder entries).map (·.1)).Pairwise (· < ·) :=
  Variables.pairwise_lt_names_mergeSort (Variables.nodup_names_setAll (t := .empty) .nil entries)

/-- What a table receives of names and values that are set in ascending order. -/
theorem merged_inOrder (t : Variables) {entries : List (String × Value)}
    {values : String → Option Value}
    (same : ∀ name, (Variables.empty.setAll entries).get? name = values name) :
    Merged t values (inOrder entries).length (t.setAll (inOrder entries)) := by
  refine ⟨fun name => ?_, (inOrder entries).map (·.1), pairwise_lt_names_inOrder entries,
    fun name => ?_, List.length_map _, Variables.names_setAll t (nodup_names_inOrder entries)⟩
  · rw [Variables.get?_setAll, get?_setAll_inOrder, same]
  · rw [← same, Variables.isSome_get?_iff]
    exact ((List.mergeSort_perm _ _).map _).mem_iff

end ReversePolish.JsonValue

namespace ReversePolish.Context

open JsonValue

/-- Loading variables fails if and only if the query or the document cannot be read, the query
breaks off, or some answer is no object or has a leaf without a value; then nothing has changed.
Otherwise the values of all objects together are set and counted, and nothing else changes. This
holds for all answers that a query may have, and in all orders of visiting the fields. -/
theorem loading_all_or_nothing (c : Context) :
    (∀ document query, c.loadVariables document query =
      c.receive (collect .kept (effective query) (ask document (effective query)))) ∧
    ∀ (o : VisitingOrder) (query : String) (asked : Except LoadError Answers),
      let loaded := c.receive (collect o query asked)
      ((∃ e, loaded.2 = .error e) ↔ Spoiled asked) ∧
      (∀ e, loaded.2 = .error e → loaded.1 = c) ∧
      ∀ count, loaded.2 = .ok count → ∃ a, asked = .ok a ∧
        loaded.1 = { c with vars := loaded.1.vars } ∧
        Merged c.vars (union (o.visit a.values)) count loaded.1.vars := by
  refine ⟨fun document query => ?_, fun o query asked => ?_⟩
  · rw [loadVariables, loadVariables_eq_collect]
  · dsimp only
    rw [← collect_error_iff o query]
    cases found : collect o query asked with
    | error e => exact ⟨⟨fun _ => ⟨e, rfl⟩, fun _ => ⟨e, rfl⟩⟩, fun _ _ => rfl, nofun⟩
    | ok table =>
        refine ⟨⟨nofun, nofun⟩, nofun, fun count done => ?_⟩
        cases done
        obtain ⟨a, entries, rfl, flat, rfl⟩ := collect_eq_ok found
        exact ⟨a, rfl, rfl, merged_inOrder c.vars (get?_setAll_answers flat)⟩

/-- Two objects share a name with each other and with the context. In the other document the leaf
without a value comes after a good object. -/
theorem loading_all_or_nothing_shared :
    let c : Context := { Context.new {} with vars := ⟨[("a.b", .ofInt 7), ("k", .ofInt 2)]⟩ }
    let good := "[\x7b\"a\":\x7b\"b\":5\x7d\x7d,\x7b\"a\":\x7b\"b\":true\x7d\x7d]"
    let bad := "[\x7b\"x\":5\x7d,\x7b\"a\":\x7b\"b\":null\x7d\x7d]"
    (∃ a, ask good ".[]" = .ok a ∧
      Merged c.vars (union a.values) 1 (c.loadVariables good ".[]").1.vars) ∧
    (c.loadVariables good ".[]").1.vars.entries = [("a.b", .ofInt 1), ("k", .ofInt 2)] ∧
    Spoiled (ask bad ".[]") ∧ (c.loadVariables bad ".[]").1 = c := by
  intro c good bad
  have same : effective ".[]" = ".[]" := by decide
  have counted : (c.loadVariables good ".[]").2.toOption = some 1 := by decide +kernel
  have refused : (c.loadVariables bad ".[]").2.toOption = none := by decide +kernel
  have entries : (c.loadVariables good ".[]").1.vars.entries =
      [("a.b", .ofInt 1), ("k", .ofInt 2)] := by decide +kernel
  obtain ⟨loads, each⟩ := loading_all_or_nothing c
  refine ⟨?_, entries, ?_⟩
  · rw [loads, same] at counted ⊢
    obtain ⟨-, -, merged⟩ := each .kept ".[]" (ask good ".[]")
    generalize c.receive (collect .kept ".[]" (ask good ".[]")) = loaded at counted merged ⊢
    cases done : loaded.2 with
    | error e =>
        rw [done] at counted
        cases counted
    | ok count =>
        rw [done] at counted
        cases counted
        obtain ⟨a, asked, -, merged⟩ := merged 1 done
        exact ⟨a, asked, merged⟩
  · rw [loads, same] at refused ⊢
    obtain ⟨fails, unchanged, -⟩ := each .kept ".[]" (ask bad ".[]")
    generalize c.receive (collect .kept ".[]" (ask bad ".[]")) = loaded
      at refused fails unchanged ⊢
    cases done : loaded.2 with
    | error e => exact ⟨fails.mp ⟨e, done⟩, unchanged e done⟩
    | ok count =>
        rw [done] at refused
        cases refused

end ReversePolish.Context
