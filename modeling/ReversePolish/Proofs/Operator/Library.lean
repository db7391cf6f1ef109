import Mathlib.Data.List.Nodup
import ReversePolish.Context
import ReversePolish.Proofs.Operator.Lookup
import ReversePolish.Proofs.Token

/-!
The builtins are found under their names.

No two builtins have the same name, so each is found under its own, whatever the policy. Their names
are words, none of them is a literal, and none starts with the sigil of a variable; so in an
expression nothing stands in the way of a builtin, and a builtin in the way of nothing.
-/

namespace ReversePolish

/-! ## Registries of distinct names -/

namespace Registry

variable {hash : String → UInt64} {r : Registry hash}

theorem entries_insertAll (r : Registry hash) (ops : List Operator) :
    (r.insertAll ops).entries = r.entries ++ ops := by
  induction ops generalizing r with
  | nil => exact (List.append_nil r.entries).symm
  | cons op ops ih =>
      rw [insertAll, List.foldl_cons]
      exact (ih (r.insert op)).trans (List.append_assoc r.entries [op] ops)

theorem Indexed.insertAll (indexed : r.Indexed) (ops : List Operator) :
    (r.insertAll ops).Indexed := by
  induction ops generalizing r with
  | nil => exact indexed
  | cons op ops ih => exact ih (indexed.insert op)

/-- Where names are distinct, every operator is found under its own. -/
theorem Indexed.lookup?_of_mem (indexed : r.Indexed) (distinct : r.names.Nodup) {op : Operator}
    (member : op ∈ r.entries) : r.lookup? op.name = some op := by
  obtain ⟨k, bound, here⟩ := List.mem_iff_getElem.mp member
  have entry : r.entries[k]? = some op := List.getElem?_eq_some_iff.mpr ⟨bound, here⟩
  have named : r.names[k]? = some op.name := by
    rw [names, List.getElem?_map, entry, Option.map_some]
  have answers := indexed.find?_answers op.name
  unfold lookup?
  cases found : r.find? op.name with
  | none =>
      rw [found] at answers
      exact absurd (List.mem_of_getElem? named) answers
  | some i =>
      rw [found] at answers
      have same : i = k :=
        (List.getElem?_inj answers.lt_length distinct).mp (answers.getElem?.trans named.symm)
      rw [same, Option.bind_some, entry]

/-- The only operator of a registry is found. -/
theorem lookup?_insert_empty (policy : Policy) (op : Operator) :
    ((empty policy : Registry hash).insert op).lookup? op.name = some op :=
  ((empty_indexed policy).insert op).lookup?_of_mem (List.nodup_singleton _)
    (List.mem_singleton_self op)

theorem Indexed.lookup?_eq_none (indexed : r.Indexed) {name : String} (absent : name ∉ r.names) :
    r.lookup? name = none := by
  have answers := indexed.find?_answers name
  unfold lookup?
  cases found : r.find? name with
  | none => rfl
  | some i =>
      rw [found] at answers
      exact absurd answers.mem absent

/-- A name that can be registered is one word of an expression. -/
theorem isWord_of_validName {name : String} (valid : validName name = true) :
    Text.IsWord name := by
  rw [validName, Bool.and_eq_true, Bool.not_eq_true', Bool.not_eq_true', List.any_eq_false]
    at valid
  constructor
  · rintro rfl
    cases valid.1
  · intro c inside
    exact Bool.eq_false_iff.mpr (valid.2 c inside)

end Registry

/-! ## The library -/

namespace Builtin

theorem nodup_names (withAdvanced : Bool) : ((library withAdvanced).map name).Nodup := by
  cases withAdvanced <;> decide +kernel

theorem function_mem_library (f : Function) : .function f ∈ library true := by
  rcases f with c | f | f | f | _
  · cases c <;> decide
  · cases f <;> decide
  · cases f <;> decide
  · cases f <;> decide
  · decide

theorem library_subset (withAdvanced : Bool) : library withAdvanced ⊆ library true := by
  cases withAdvanced with
  | true => exact List.Subset.refl _
  | false => decide

/-- Every name of a builtin is one word, is no literal, and does not start with the sigil. -/
theorem names_apart : ∀ b ∈ library true, Registry.validName b.name = true ∧
    Token.isLiteral b.name = false ∧ b.name.toList.head? ≠ some Token.sigil := by
  decide +kernel

theorem isWord_name {b : Builtin} (member : b ∈ library true) : Text.IsWord b.name :=
  Registry.isWord_of_validName (names_apart b member).1

end Builtin

namespace Context

theorem startingOperators_indexed (o : ContextOptions) : (startingOperators o).Indexed :=
  (Registry.empty_indexed o.policy).insertAll _

theorem names_startingOperators {o : ContextOptions} (loaded : o.builtins = true) :
    (startingOperators o).names = (Builtin.library o.advanced).map Builtin.name := by
  rw [Registry.names, startingOperators, Registry.entries_insertAll, if_pos loaded]
  show (([] : List Operator) ++ _).map _ = _
  rw [List.nil_append, List.map_map]
  rfl

theorem lookup?_startingOperators {o : ContextOptions} (loaded : o.builtins = true) {b : Builtin}
    (member : b ∈ Builtin.library o.advanced) :
    (startingOperators o).lookup? b.name = some (.builtin b) := by
  have distinct : (startingOperators o).names.Nodup := by
    rw [names_startingOperators loaded]
    exact Builtin.nodup_names o.advanced
  have entry : Operator.builtin b ∈ (startingOperators o).entries := by
    rw [startingOperators, Registry.entries_insertAll, if_pos loaded]
    exact List.mem_append_right _ (List.mem_map_of_mem member)
  exact (startingOperators_indexed o).lookup?_of_mem distinct entry

/-- No builtin is called like a reference. -/
theorem lookup?_reference {o : ContextOptions} (loaded : o.builtins = true)
    (name : String) : (startingOperators o).lookup? (Token.reference name) = none := by
  apply (startingOperators_indexed o).lookup?_eq_none
  rw [names_startingOperators loaded, List.mem_map]
  rintro ⟨b, member, same⟩
  apply (Builtin.names_apart b (Builtin.library_subset o.advanced member)).2.2
  rw [same, Token.toList_reference, List.head?_cons]

end Context

end ReversePolish
