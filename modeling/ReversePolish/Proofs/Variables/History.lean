import Mathlib.Data.List.Induction
import ReversePolish.Context
import ReversePolish.Proofs.Variables

/-!
The table of variables against its history.

A table is the result of settings, deletions and clearings, one after the other, and what it holds
can be told from this history alone. For each name only the edits count that came since the name
was last taken out (`since`). If one of them is a setting, the name is in the table: with the value
of the last of these settings (`latest?`), at the place of the first (`place?`). `remembered` lists
the names by their places, and `entries_replay` says that the table is this list.

Both sides take one further edit in the same way: every entry is carried over, changed or dropped
(`Edit.carry`), and a setting of a name that is not there adds an entry at the end (`Edit.added`).
-/

namespace ReversePolish.Variables

/-- What can be done to a table. -/
inductive Edit where
  | set (name : String) (v : Value)
  | delete (name : String)
  | clear

namespace Edit

/-- Whether an edit takes a name out of the table. -/
def removes (name : String) : Edit → Bool
  | .set .. => false
  | .delete other => other = name
  | .clear => true

/-- The value that an edit gives to a name. -/
def gives? (name : String) : Edit → Option Value
  | .set other v => if other = name then some v else none
  | .delete _ => none
  | .clear => none

/-- What becomes of an entry. -/
def carry (e : Edit) (entry : String × Value) : Option (String × Value) :=
  if e.removes entry.1 then none else some (entry.1, (e.gives? entry.1).getD entry.2)

/-- What is added to a table that has the names `known`. -/
def added (known : String → Bool) : Edit → List (String × Value)
  | .set name v => if known name then [] else [(name, v)]
  | .delete _ => []
  | .clear => []

end Edit

/-- The call that makes an edit. -/
def Edit.call : Edit → Call
  | .set name v => .set name v
  | .delete name => .delete name
  | .clear => .clearVariables

/-- The table after an edit. -/
def edit (t : Variables) : Edit → Variables
  | .set name v => t.set name v
  | .delete name => t.erase name
  | .clear => empty

/-- The table after all edits of a history. -/
def replay (history : List Edit) : Variables :=
  history.foldl edit empty

/-! ## What a history says -/

/-- The edits since a name was last taken out. -/
def since (history : List Edit) (name : String) : List Edit :=
  (history.reverse.takeWhile (fun e => !e.removes name)).reverse

/-- The value that a name was last given since then. -/
def latest? (history : List Edit) (name : String) : Option Value :=
  ((since history name).filterMap (Edit.gives? name)).getLast?

/-- The place in the history at which a name was first set since then. -/
def place? (history : List Edit) (name : String) : Option Nat :=
  ((since history name).findIdx? (fun e => (e.gives? name).isSome)).map
    (history.length - (since history name).length + ·)

/-- The entry that comes from a place in the history. -/
def entryAt? (history : List Edit) (i : Nat) : Option (String × Value) :=
  match history[i]? with
  | some (.set name _) =>
    if place? history name = some i then (latest? history name).map (name, ·) else none
  | _ => none

/-- The names that were set since they were last taken out, in the order of their places, each with
its last value. -/
def remembered (history : List Edit) : List (String × Value) :=
  (List.range history.length).filterMap (entryAt? history)

section Concat

variable (history : List Edit) (e : Edit) (name : String)

theorem since_concat :
    since (history ++ [e]) name = if e.removes name then [] else since history name ++ [e] := by
  unfold since
  rw [List.reverse_append, List.reverse_singleton, List.singleton_append, List.takeWhile_cons]
  cases e.removes name with
  | true => rfl
  | false => exact List.reverse_cons

theorem length_since_le : (since history name).length ≤ history.length := by
  unfold since
  rw [List.length_reverse]
  exact Nat.le_trans (List.takeWhile_sublist _).length_le (Nat.le_of_eq List.length_reverse)

theorem latest?_concat :
    latest? (history ++ [e]) name =
      if e.removes name then none else (e.gives? name).or (latest? history name) := by
  unfold latest?
  rw [since_concat]
  split
  · rfl
  · rw [List.filterMap_append, List.getLast?_append]
    cases given : e.gives? name <;> simp [given]

theorem place?_concat :
    place? (history ++ [e]) name =
      if e.removes name then none
      else (place? history name).or
        (if (e.gives? name).isSome then some history.length else none) := by
  have bound := length_since_le history name
  unfold place?
  rw [since_concat]
  split
  · rfl
  · rw [List.findIdx?_append, List.findIdx?_singleton, List.length_append, List.length_append]
    cases (since history name).findIdx? (fun e => (e.gives? name).isSome) with
    | some i => simp
    | none =>
        split
        · simp
          omega
        · rfl

theorem place?_lt {history : List Edit} {name : String} {i : Nat}
    (found : place? history name = some i) : i < history.length := by
  have bound := length_since_le history name
  obtain ⟨j, first, rfl⟩ := Option.map_eq_some_iff.mp found
  have inside := (List.findIdx?_eq_some_iff_getElem.mp first).choose
  omega

/-- A name has a place if and only if it has a value. -/
theorem isSome_place? : (place? history name).isSome = (latest? history name).isSome := by
  induction history using List.reverseRecOn with
  | nil => rfl
  | append_singleton history e ih =>
      rw [place?_concat, latest?_concat]
      split
      · rfl
      · rw [Option.isSome_or, Option.isSome_or, ih, Bool.or_comm]
        cases e.gives? name <;> rfl

/-- An edit carries over what comes from the places before it. -/
theorem entryAt?_concat {i : Nat} (before : i < history.length) :
    entryAt? (history ++ [e]) i = (entryAt? history i).bind e.carry := by
  unfold entryAt?
  rw [List.getElem?_append_left before]
  split
  · rename_i name v _
    rw [place?_concat, latest?_concat]
    cases first : place? history name with
    | none =>
        have later : ¬ history.length = i := by omega
        cases e.removes name <;> cases e.gives? name <;> simp [later]
    | some j =>
        have known : (latest? history name).isSome = true := by
          rw [← isSome_place?, first]
          rfl
        obtain ⟨x, last⟩ := Option.isSome_iff_exists.mp known
        rw [last, Option.some_or]
        by_cases here : j = i
        · cases removed : e.removes name <;> cases given : e.gives? name <;>
            simp [Edit.carry, here, removed, given]
        · cases e.removes name <;> simp [here]
  · rfl

/-- A setting of a name that has no place gives it the next one. -/
theorem toList_entryAt?_concat :
    (entryAt? (history ++ [e]) history.length).toList =
      e.added (fun name => (place? history name).isSome) := by
  unfold entryAt?
  rw [List.getElem?_concat_length]
  cases e with
  | delete name => rfl
  | clear => rfl
  | set name v =>
      rcases Option.eq_none_or_eq_some (place? history name) with first | ⟨j, first⟩
      · simp [place?_concat, latest?_concat, first, Edit.added, Edit.removes, Edit.gives?]
      · have before : ¬ j = history.length := Nat.ne_of_lt (place?_lt first)
        simp [place?_concat, first, Edit.added, Edit.removes, before]

theorem remembered_concat :
    remembered (history ++ [e]) =
      (remembered history).filterMap e.carry ++
        e.added (fun name => (place? history name).isSome) := by
  have earlier : (List.range history.length).filterMap (entryAt? (history ++ [e])) =
      (remembered history).filterMap e.carry := by
    rw [remembered, List.filterMap_filterMap]
    exact List.filterMap_congr
      (fun i member => entryAt?_concat history e (List.mem_range.mp member))
  rw [remembered, List.length_append, List.length_singleton, List.range_succ,
    List.filterMap_append, earlier, ← toList_entryAt?_concat]
  cases entry : entryAt? (history ++ [e]) history.length <;> simp [entry]

end Concat

/-! ## The table -/

/-- A setting carries the entries of other names over as they are. -/
theorem filterMap_carry_set {entries : List (String × Value)} {name : String}
    (others : ∀ entry ∈ entries, entry.1 ≠ name) (v : Value) :
    entries.filterMap (Edit.set name v).carry = entries := by
  refine (List.filterMap_congr (g := some) fun entry member => ?_).trans List.filterMap_some
  simp [Edit.carry, Edit.removes, Edit.gives?, (others entry member).symm]

section Table

variable {t : Variables} (apart : t.names.Nodup) (e : Edit)
include apart

theorem nodup_names_edit : (t.edit e).names.Nodup := by
  cases e with
  | set name v => exact nodup_names_set apart name v
  | delete name => exact nodup_names_erase apart name
  | clear => exact .nil

theorem get?_edit (name : String) :
    (t.edit e).get? name = if e.removes name then none else (e.gives? name).or (t.get? name) := by
  cases e with
  | set other v =>
      rw [edit, get?_set]
      by_cases same : other = name <;> simp [Edit.removes, Edit.gives?, same]
  | delete other =>
      rw [edit, get?_erase apart]
      by_cases same : other = name <;> simp [Edit.removes, Edit.gives?, same]
  | clear => rfl

theorem entries_set (name : String) (v : Value) :
    (t.set name v).entries =
      t.entries.filterMap (Edit.set name v).carry ++ (Edit.set name v).added t.contains := by
  obtain ⟨entries⟩ := t
  induction entries with
  | nil => rfl
  | cons entry rest ih =>
      obtain ⟨fresh, apart⟩ := List.nodup_cons.mp apart
      have next : (Edit.set name v).carry entry =
          some (entry.1, if name = entry.1 then v else entry.2) := by
        by_cases same : name = entry.1 <;> simp [Edit.carry, Edit.removes, Edit.gives?, same]
      by_cases same : entry.1 = name
      · -- The name is there once, so all that follows stays.
        have others : rest.filterMap (Edit.set name v).carry = rest :=
          filterMap_carry_set (fun other member here =>
            fresh (List.mem_map.mpr ⟨other, member, here.trans same.symm⟩)) v
        have known : contains ⟨entry :: rest⟩ name = true := by
          rw [contains, get?_cons, if_pos same]
          rfl
        rw [List.filterMap_cons, next, others, Edit.added, known]
        simp [set, setEntry, same]
      · have differ : ¬ name = entry.1 := fun here => same here.symm
        have known : contains ⟨entry :: rest⟩ name = contains ⟨rest⟩ name := by
          rw [contains, get?_cons, if_neg same, contains]
        have tail := ih apart
        rw [Edit.added] at tail
        rw [List.filterMap_cons, next, if_neg differ, Edit.added, known]
        simp only [set, setEntry, if_neg same] at tail ⊢
        rw [tail, List.cons_append]

/-- What an edit does to a table. -/
theorem entries_edit :
    (t.edit e).entries = t.entries.filterMap e.carry ++ e.added t.contains := by
  cases e with
  | set name v => exact entries_set apart name v
  | delete name =>
      rw [edit, entries_erase apart, Edit.added, List.append_nil, ← List.filterMap_eq_filter]
      refine List.filterMap_congr fun entry _ => ?_
      by_cases same : entry.1 = name
      · simp [Option.guard, Edit.carry, Edit.removes, same]
      · have differ : ¬ name = entry.1 := fun here => same here.symm
        simp [Option.guard, Edit.carry, Edit.removes, Edit.gives?, same, differ]
  | clear =>
      rw [edit, Edit.added, List.append_nil]
      exact (List.filterMap_eq_nil_iff.mpr fun _ _ => rfl).symm

end Table

theorem replay_concat (history : List Edit) (e : Edit) :
    replay (history ++ [e]) = (replay history).edit e :=
  List.foldl_append

theorem nodup_names_replay (history : List Edit) : (replay history).names.Nodup := by
  induction history using List.reverseRecOn with
  | nil => exact .nil
  | append_singleton history e ih =>
      rw [replay_concat]
      exact nodup_names_edit ih e

/-- A name stands for the last value that it was given since it was taken out. -/
theorem get?_replay (history : List Edit) (name : String) :
    (replay history).get? name = latest? history name := by
  induction history using List.reverseRecOn with
  | nil => rfl
  | append_singleton history e ih =>
      rw [replay_concat, get?_edit (nodup_names_replay history), ih, latest?_concat]

/-- The table holds what its history says. -/
theorem entries_replay (history : List Edit) : (replay history).entries = remembered history := by
  induction history using List.reverseRecOn with
  | nil => rfl
  | append_singleton history e ih =>
      have known : (replay history).contains = fun name => (place? history name).isSome := by
        funext name
        rw [contains, get?_replay, isSome_place?]
      rw [replay_concat, entries_edit (nodup_names_replay history), ih, known, remembered_concat]

/-! ## Calls on a context -/

theorem perform_call (c : Context) (e : Edit) :
    (c.perform e.call).1 = { c with vars := c.vars.edit e } := by
  cases e <;> rfl

theorem foldl_perform_calls (c : Context) (history : List Edit) :
    history.foldl (fun c e => (c.perform e.call).1) { c with vars := .empty } =
      { c with vars := replay history } := by
  induction history using List.reverseRecOn with
  | nil => rfl
  | append_singleton history e ih =>
      rw [List.foldl_append, ih, replay_concat]
      exact perform_call _ e

/-- A table that was made from an empty one by settings, deletions and clearings, as calls on a
context make them, holds each name once. It lists the names that were set since they were last
taken out, at the places of their first settings since then, with the values of the last; the
values of names, the size and the list of names are read off from this list. A deletion answers
whether the name was there and leaves the others in their order, and if the name is then set again,
it is the last. -/
theorem replay_insertion_ordered (history : List Edit) :
    let t := replay history
    let kept := remembered history
    (∀ c : Context, history.foldl (fun c e => (c.perform e.call).1) { c with vars := .empty } =
      { c with vars := t }) ∧
    t.names.Nodup ∧
    (t.entries = kept ∧ t.names = kept.map (·.1) ∧ t.size = kept.length) ∧
    (∀ name, t.get? name = latest? history name ∧
      ((t.get? name).isSome = true ↔ name ∈ kept.map (·.1))) ∧
    (∀ (c : Context) (name : String), { c with vars := t }.perform (.delete name) =
      ({ c with vars := ⟨kept.filter (·.1 ≠ name)⟩ },
        .flag (decide (name ∈ kept.map (·.1))))) ∧
    (∀ name v, ((t.erase name).set name v).entries =
      kept.filter (·.1 ≠ name) ++ [(name, v)]) := by
  intro t kept
  have apart : t.names.Nodup := nodup_names_replay history
  have entries : t.entries = kept := entries_replay history
  have listed : t.names = kept.map (·.1) := by rw [names, entries]
  have erased (name : String) : t.erase name = ⟨kept.filter (·.1 ≠ name)⟩ := by
    rw [← entries, ← entries_erase apart]
  have present (name : String) : (t.get? name).isSome = true ↔ name ∈ kept.map (·.1) := by
    rw [isSome_get?_iff, listed]
  refine ⟨fun c => foldl_perform_calls c history, apart,
    ⟨entries, listed, congrArg List.length entries⟩,
    fun name => ⟨get?_replay history name, present name⟩, fun c name => ?_, fun name v => ?_⟩
  · have answer : t.contains name = decide (name ∈ kept.map (·.1)) := by
      rw [Bool.eq_iff_iff, decide_eq_true_iff]
      exact present name
    rw [Context.perform, erased, answer]
  · have gone : name ∉ (t.erase name).names := by
      rw [← isSome_get?_iff, get?_erase apart, if_pos rfl]
      exact Bool.false_ne_true
    rw [entries_set_of_not_mem gone, erased]

example : remembered [.set "a" 1, .set "b" 2, .set "a" 3, .delete "a", .set "c" 4, .set "a" 5] =
    [("b", 2), ("c", 4), ("a", 5)] := by decide +kernel

end ReversePolish.Variables
