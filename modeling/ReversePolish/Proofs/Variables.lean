import ReversePolish.Variables
import Mathlib.Data.List.Basic

/-!
The table of variables as a function from names.

After a sequence of settings a name has the value that it was given last
(`get?_setAll_append`, `get?_setAll_concat`), and the names of the table are those that were set,
each one once.
-/

namespace ReversePolish.Variables

/-! ## One setting -/

theorem names_setEntry (name : String) (v : Value) (entries : List (String × Value)) :
    (setEntry name v entries).map (·.1) =
      if name ∈ entries.map (·.1) then entries.map (·.1) else entries.map (·.1) ++ [name] := by
  induction entries with
  | nil => rfl
  | cons entry rest ih =>
      by_cases same : entry.1 = name
      · simp [setEntry, same]
      · have other : ¬ name = entry.1 := fun h => same h.symm
        simp only [setEntry, if_neg same, List.map_cons, ih, List.mem_cons, other, false_or]
        split <;> rfl

/-- A setting keeps the names apart. -/
theorem nodup_names_set {t : Variables} (apart : t.names.Nodup) (name : String) (v : Value) :
    (t.set name v).names.Nodup := by
  rw [names, set, names_setEntry]
  split
  · exact apart
  · rename_i fresh
    exact List.Perm.nodup_iff (List.perm_append_singleton _ _) |>.mpr
      (List.nodup_cons.mpr ⟨fresh, apart⟩)

theorem get?_cons (entry : String × Value) (rest : List (String × Value)) (name : String) :
    get? ⟨entry :: rest⟩ name = if entry.1 = name then some entry.2 else get? ⟨rest⟩ name := by
  by_cases here : entry.1 = name <;> simp [get?, here]

/-- A setting is seen under its own name only. -/
theorem get?_set (t : Variables) (name other : String) (v : Value) :
    (t.set name v).get? other = if name = other then some v else t.get? other := by
  obtain ⟨entries⟩ := t
  rw [set]
  induction entries with
  | nil => exact get?_cons (name, v) [] other
  | cons entry rest ih =>
      dsimp only at ih ⊢
      rw [setEntry]
      split
      · rename_i here
        rw [get?_cons, get?_cons, here]
        split <;> rfl
      · rename_i apart
        rw [get?_cons, get?_cons, ih]
        split <;> split <;> simp_all

/-- A new name goes to the end. -/
theorem entries_set_of_not_mem {t : Variables} {name : String} (fresh : name ∉ t.names)
    (v : Value) : (t.set name v).entries = t.entries ++ [(name, v)] := by
  obtain ⟨entries⟩ := t
  show setEntry name v entries = entries ++ [(name, v)]
  induction entries with
  | nil => rfl
  | cons entry rest ih =>
      have other : ¬ entry.1 = name := fun same => fresh (same ▸ List.mem_cons_self)
      have later := ih (fun member => fresh (List.mem_cons_of_mem _ member))
      rw [setEntry, if_neg other, later, List.cons_append]

/-- The entries of a table without repetition are what its names stand for. -/
theorem mem_entries_iff {t : Variables} (apart : t.names.Nodup) {name : String} {v : Value} :
    (name, v) ∈ t.entries ↔ t.get? name = some v := by
  obtain ⟨entries⟩ := t
  induction entries with
  | nil => exact ⟨nofun, nofun⟩
  | cons entry rest ih =>
      obtain ⟨fresh, apart⟩ := List.nodup_cons.mp apart
      rw [get?_cons, List.mem_cons, ih apart]
      split
      · rename_i here
        have absent : ¬ get? ⟨rest⟩ name = some v := fun found =>
          fresh (List.mem_map.mpr ⟨(name, v), (ih apart).mpr found, here.symm⟩)
        rw [or_iff_left absent, ← here, Prod.ext_iff]
        simp [eq_comm]
      · rename_i other
        rw [or_iff_right]
        rintro rfl
        exact other rfl

theorem isSome_get?_iff {t : Variables} {name : String} :
    (t.get? name).isSome = true ↔ name ∈ t.names := by
  simp [get?, names]

/-! ## One deletion -/

/-- A deletion leaves the other entries, in their order. -/
theorem entries_erase {t : Variables} (apart : t.names.Nodup) (name : String) :
    (t.erase name).entries = t.entries.filter (·.1 ≠ name) := by
  obtain ⟨entries⟩ := t
  show entries.eraseP (·.1 = name) = entries.filter (·.1 ≠ name)
  induction entries with
  | nil => rfl
  | cons entry rest ih =>
      obtain ⟨fresh, apart⟩ := List.nodup_cons.mp apart
      by_cases here : entry.1 = name
      · have others : rest.filter (·.1 ≠ name) = rest := by
          refine List.filter_eq_self.mpr (fun other member => decide_eq_true fun same => fresh ?_)
          exact List.mem_map.mpr ⟨other, member, same.trans here.symm⟩
        rw [List.eraseP_cons_of_pos (by simp [here]), List.filter_cons_of_neg (by simp [here]),
          others]
      · rw [List.eraseP_cons_of_neg (by simp [here]), List.filter_cons_of_pos (by simp [here])]
        exact congrArg (entry :: ·) (ih apart)

theorem nodup_names_erase {t : Variables} (apart : t.names.Nodup) (name : String) :
    (t.erase name).names.Nodup :=
  apart.sublist (List.eraseP_sublist.map _)

theorem get?_erase {t : Variables} (apart : t.names.Nodup) (name other : String) :
    (t.erase name).get? other = if name = other then none else t.get? other := by
  rw [get?, entries_erase apart, List.find?_filter, get?]
  split
  · rename_i same
    subst same
    simp
  · rename_i differ
    congr 2
    funext entry
    by_cases here : entry.1 = other <;> simp [here, Ne.symm differ]

/-! ## Sequences of settings -/

theorem nodup_names_setAll {t : Variables} (apart : t.names.Nodup)
    (entries : List (String × Value)) : (t.setAll entries).names.Nodup := by
  induction entries generalizing t with
  | nil => exact apart
  | cons entry rest ih => exact ih (nodup_names_set apart _ _)

/-- Names that are there keep their places, and the others follow in the order of their first
settings. -/
theorem names_setAll_eraseDups (t : Variables) (entries : List (String × Value)) :
    (t.setAll entries).names = t.names ++ ((entries.map (·.1)).filter (· ∉ t.names)).eraseDups := by
  induction entries generalizing t with
  | nil => exact (List.append_nil _).symm
  | cons entry rest ih =>
      have here : (t.set entry.1 entry.2).names =
          if entry.1 ∈ t.names then t.names else t.names ++ [entry.1] :=
        names_setEntry entry.1 entry.2 t.entries
      show ((t.set entry.1 entry.2).setAll rest).names = _
      rw [ih, here, List.map_cons]
      by_cases known : entry.1 ∈ t.names
      · simp [known]
      · have others : (rest.map (·.1)).filter (· ∉ t.names ++ [entry.1]) =
            ((rest.map (·.1)).filter (· ∉ t.names)).filter (fun name => !name == entry.1) := by
          rw [List.filter_filter]
          refine List.filter_congr fun name _ => ?_
          by_cases same : name = entry.1 <;> simp [same]
        rw [if_neg known, others, List.filter_cons_of_pos (by simpa using known),
          List.eraseDups_cons, List.append_assoc, List.singleton_append]

theorem eraseDups_of_nodup {names : List String} (distinct : names.Nodup) :
    names.eraseDups = names := by
  induction names with
  | nil => rfl
  | cons name rest ih =>
      obtain ⟨once, distinct⟩ := List.nodup_cons.mp distinct
      have others : rest.filter (fun other => !other == name) = rest := by
        refine List.filter_eq_self.mpr fun other member => ?_
        have differ : other ≠ name := fun same => once (same ▸ member)
        simp [differ]
      rw [List.eraseDups_cons, others, ih distinct]

theorem names_setAll (t : Variables) {entries : List (String × Value)}
    (apart : (entries.map (·.1)).Nodup) :
    (t.setAll entries).names = t.names ++ (entries.map (·.1)).filter (· ∉ t.names) := by
  rw [names_setAll_eraseDups, eraseDups_of_nodup (apart.filter _)]

/-- Settings of distinct new names are appended. -/
theorem entries_setAll {t : Variables} {entries : List (String × Value)}
    (fresh : ∀ name ∈ entries.map (·.1), name ∉ t.names) (apart : (entries.map (·.1)).Nodup) :
    (t.setAll entries).entries = t.entries ++ entries := by
  induction entries generalizing t with
  | nil => exact (List.append_nil _).symm
  | cons entry rest ih =>
      obtain ⟨once, apart⟩ := List.nodup_cons.mp apart
      have here := entries_set_of_not_mem (fresh entry.1 List.mem_cons_self) entry.2
      have later : ∀ name ∈ rest.map (·.1), name ∉ (t.set entry.1 entry.2).names := by
        intro name member
        rw [names, here, List.map_append, List.mem_append]
        rintro (old | new)
        · exact fresh name (List.mem_cons_of_mem _ member) old
        · exact once (List.mem_singleton.mp new ▸ member)
      show ((t.set entry.1 entry.2).setAll rest).entries = _
      rw [ih later apart, here, List.append_assoc, List.singleton_append]

/-- Later settings count, and where there are none the earlier ones do. -/
theorem get?_setAll (t : Variables) (entries : List (String × Value)) (name : String) :
    (t.setAll entries).get? name = ((empty.setAll entries).get? name).or (t.get? name) := by
  induction entries generalizing t with
  | nil => rfl
  | cons entry rest ih =>
      show ((t.set entry.1 entry.2).setAll rest).get? name =
        (((empty.set entry.1 entry.2).setAll rest).get? name).or _
      rw [ih (t.set _ _), ih (empty.set _ _), get?_set, get?_set, Option.or_assoc]
      split <;> rfl

theorem get?_setAll_append (first more : List (String × Value)) (name : String) :
    (empty.setAll (first ++ more)).get? name =
      ((empty.setAll more).get? name).or ((empty.setAll first).get? name) := by
  rw [setAll, List.foldl_append]
  exact get?_setAll _ more name

theorem get?_setAll_singleton (name other : String) (v : Value) :
    (empty.setAll [(name, v)]).get? other = if name = other then some v else none :=
  get?_set empty name other v

theorem get?_setAll_concat (front : List (String × Value)) (name : String) (v : Value) :
    (empty.setAll (front ++ [(name, v)])).get? name = some v := by
  rw [get?_setAll_append, get?_setAll_singleton, if_pos rfl, Option.some_or]

/-- A name is left with the last of the values that it is given. -/
theorem get?_setAll_eq_getLast? (entries : List (String × Value)) (name : String) :
    (empty.setAll entries).get? name =
      ((entries.filter (·.1 = name)).map (·.2)).getLast? := by
  induction entries with
  | nil => rfl
  | cons entry rest ih =>
      rw [← List.singleton_append, get?_setAll_append, get?_setAll_singleton, List.filter_append,
        List.map_append, List.getLast?_append, ih]
      by_cases here : entry.1 = name <;> simp [here]

/-- What a name stands for was given to it. -/
theorem mem_of_get?_setAll {entries : List (String × Value)} {name : String} {v : Value}
    (found : (empty.setAll entries).get? name = some v) : (name, v) ∈ entries := by
  induction entries with
  | nil => cases found
  | cons entry rest ih =>
      rw [← List.singleton_append, get?_setAll_append, get?_setAll_singleton] at found
      rcases Option.or_eq_some_iff.mp found with later | ⟨-, now⟩
      · exact .tail _ (ih later)
      · split at now
        · rename_i here
          cases now
          subst here
          exact .head _
        · cases now

/-- A name that was set stands for something. -/
theorem isSome_get?_setAll {entries : List (String × Value)} {name : String} {v : Value}
    (member : (name, v) ∈ entries) : ((empty.setAll entries).get? name).isSome = true := by
  obtain ⟨front, rest, rfl⟩ := List.append_of_mem member
  rw [← List.singleton_append, ← List.append_assoc, get?_setAll_append, get?_setAll_concat,
    Option.isSome_or, Option.isSome_some, Bool.or_true]

/-! ## Ascending order -/

theorem pairwise_mergeSort_names (entries : List (String × Value)) :
    (entries.mergeSort (fun a b => !decide (b.1 < a.1))).Pairwise (fun a b => a.1 ≤ b.1) := by
  have ascending (a b : String × Value) : (!decide (b.1 < a.1)) = true ↔ a.1 ≤ b.1 := by
    rw [Bool.not_eq_true', decide_eq_false_iff_not, String.not_lt]
  have sorted := @List.pairwise_mergeSort (String × Value) (fun a b => !decide (b.1 < a.1))
    (fun a b c first second => by
      rw [ascending] at first second ⊢
      exact String.le_trans first second)
    (fun a b => by
      rw [Bool.or_eq_true, ascending, ascending]
      exact String.le_total a.1 b.1)
    entries
  exact sorted.imp (fun h => (ascending _ _).mp h)

/-- Names that are distinct ascend strictly when they are sorted. -/
theorem pairwise_lt_names_mergeSort {entries : List (String × Value)}
    (distinct : (entries.map (·.1)).Nodup) :
    ((entries.mergeSort (fun a b => !decide (b.1 < a.1))).map (·.1)).Pairwise (· < ·) := by
  have sorted := List.pairwise_map.mpr (pairwise_mergeSort_names entries)
  have perm := List.mergeSort_perm entries (fun a b => !decide (b.1 < a.1))
  have apart := (perm.map (·.1)).nodup_iff.mpr distinct
  refine (sorted.and apart).imp ?_
  rintro name other ⟨below, differ⟩
  exact String.not_le.mp fun above => differ (String.le_antisymm below above)

end ReversePolish.Variables
