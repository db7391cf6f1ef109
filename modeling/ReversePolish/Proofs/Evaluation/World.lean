import ReversePolish.Evaluation

/-!
Contexts of a world that is changed at one place.

`World.put` and `World.modify` change one context and leave the others, the shared hook and the
journal alone. The lemmas here say so, in the forms in which runs of tokens and scripts use it.
-/

namespace ReversePolish.World

variable {w : World} {id j : Nat} {c d : Context}

theorem lt_length_of_get? (present : w.get? id = some c) : id < w.contexts.length :=
  (List.getElem?_eq_some_iff.mp present).choose

/-- A world with a context admits an evaluation. -/
theorem length_eq_succ (present : w.get? id = some c) : ∃ n, w.contexts.length = n + 1 :=
  Nat.exists_eq_succ_of_ne_zero (Nat.ne_zero_of_lt (lt_length_of_get? present))

@[simp] theorem length_put (w : World) (id : Nat) (c : Context) :
    (w.put id c).contexts.length = w.contexts.length :=
  List.length_set

@[simp] theorem sharedHook_put (w : World) (id : Nat) (c : Context) :
    (w.put id c).sharedHook = w.sharedHook := rfl

theorem get?_put_self (present : w.get? id = some c) : (w.put id d).get? id = some d :=
  List.getElem?_set_self (lt_length_of_get? present)

theorem get?_put_ne (ne : j ≠ id) : (w.put id d).get? j = w.get? j :=
  List.getElem?_set_ne (fun same => ne same.symm)

@[simp] theorem put_put (w : World) (id : Nat) (c d : Context) :
    (w.put id c).put id d = w.put id d := by
  unfold put
  rw [List.set_set]

theorem put_get? (present : w.get? id = some c) : w.put id c = w := by
  obtain ⟨bound, here⟩ := List.getElem?_eq_some_iff.mp present
  unfold put
  rw [← here, List.set_getElem_self bound]

theorem modify_eq_put (present : w.get? id = some c) (f : Context → Context) :
    w.modify id f = w.put id (f c) := by
  unfold modify
  rw [present]

theorem get?_modify_self (present : w.get? id = some c) (f : Context → Context) :
    (w.modify id f).get? id = some (f c) := by
  rw [modify_eq_put present]
  exact get?_put_self present

theorem get?_modify_ne (ne : j ≠ id) (f : Context → Context) :
    (w.modify id f).get? j = w.get? j := by
  unfold modify
  split
  · exact get?_put_ne ne
  · rfl

@[simp] theorem length_modify (w : World) (id : Nat) (f : Context → Context) :
    (w.modify id f).contexts.length = w.contexts.length := by
  unfold modify
  split
  · exact length_put w id _
  · rfl

@[simp] theorem journal_put (w : World) (id : Nat) (c : Context) :
    (w.put id c).journal = w.journal := rfl

@[simp] theorem journal_modify (w : World) (id : Nat) (f : Context → Context) :
    (w.modify id f).journal = w.journal := by
  unfold modify
  split <;> rfl

theorem modify_put (present : w.get? id = some c) (f : Context → Context) :
    (w.put id d).modify id f = w.put id (f d) := by
  rw [modify_eq_put (get?_put_self present), put_put]

end ReversePolish.World
