import Mathlib.Data.Finset.Card
import ReversePolish.Proofs.Evaluation.Guard

/-!
Evaluations on contexts that are idle, and how many fit into each other.

An evaluation is a run of tokens if its context is idle, and refused if not, at every level. Nested
evaluations are on distinct contexts, so a level that is no lower than the number of contexts that
are free suffices; `World.free` counts those, the start of an evaluation takes one away, and nothing
that happens inside gives one back.
-/

namespace ReversePolish

/-- Whether a context takes an evaluation. -/
def World.isIdle (w : World) (id : Nat) : Bool :=
  (w.get? id).any (fun c => !c.closed && !c.busy)

theorem World.isIdle_iff {w : World} {id : Nat} :
    w.isIdle id = true ↔ ∃ c, w.get? id = some c ∧ c.closed = false ∧ c.busy = false := by
  unfold World.isIdle
  rw [Option.any_eq_true]
  constructor
  · rintro ⟨c, present, idle⟩
    rw [Bool.and_eq_true, Bool.not_eq_true', Bool.not_eq_true'] at idle
    exact ⟨c, present, idle⟩
  · rintro ⟨c, present, isOpen, idle⟩
    refine ⟨c, present, ?_⟩
    rw [isOpen, idle]
    rfl

/-! ## Evaluations and refusals -/

/-- The end of an evaluation: its context takes another one. -/
def finish (id : Nat) (run : World × Reply) : World × Reply :=
  (run.1.modify id Context.release, run.2)

/-- An evaluation on an idle context is a run of its tokens, between a start and a release. -/
theorem evaluateAt_succ_of_idle {w : World} {id : Nat} {c : Context} (n : Nat)
    (present : w.get? id = some c) (isOpen : c.closed = false) (idle : c.busy = false)
    (input : String) (strict : Bool) :
    evaluateAt (n + 1) w id input strict =
      finish id
        (runTokens (evaluateAt n) id strict 0 (Token.tokenize input) (w.put id c.start)) := by
  show evaluateWith (evaluateAt n) w id input strict = _
  simp only [evaluateWith, present, isOpen, idle, Bool.false_eq_true, if_false, finish]

/-- An evaluation on another context is refused. -/
theorem evaluateAt_of_not_idle {w : World} {id : Nat} (n : Nat) (other : w.isIdle id = false)
    (input : String) (strict : Bool) :
    evaluateAt n w id input strict = refuseEvaluation w id input strict := by
  cases n with
  | zero => rfl
  | succ n =>
      show evaluateWith (evaluateAt n) w id input strict = _
      unfold evaluateWith refuseEvaluation
      cases present : w.get? id with
      | none => rfl
      | some c =>
          dsimp only
          split
          · rfl
          · rename_i isOpen
            split
            · rfl
            · rename_i idle
              rw [World.isIdle, present, Option.any_some] at other
              simp_all

theorem refuseEvaluation_world (w : World) (id : Nat) (input : String) (strict : Bool) :
    (refuseEvaluation w id input strict).1 = w := by
  unfold refuseEvaluation
  split
  · rfl
  · split <;> rfl

/-! ## Free contexts -/

/-- The contexts that are not busy. -/
def World.free (w : World) : Finset Nat :=
  (Finset.range w.contexts.length).filter (fun j => (w.get? j).any (fun c => !c.busy))

namespace World

variable {w w₁ : World} {id j : Nat} {c : Context}

theorem mem_free : j ∈ w.free ↔ ∃ c, w.get? j = some c ∧ c.busy = false := by
  unfold free
  rw [Finset.mem_filter, Finset.mem_range, Option.any_eq_true]
  constructor
  · rintro ⟨-, c, present, idle⟩
    exact ⟨c, present, by rwa [Bool.not_eq_true'] at idle⟩
  · rintro ⟨c, present, idle⟩
    exact ⟨lt_length_of_get? present, c, present, by rw [idle]; rfl⟩

/-- What leaves the busy contexts busy frees none. -/
theorem free_subset (length : w₁.contexts.length = w.contexts.length)
    (busy : ∀ {j c}, w.get? j = some c → c.busy = true →
      ∃ c₁, w₁.get? j = some c₁ ∧ c₁.busy = true) : w₁.free ⊆ w.free := by
  intro j member
  obtain ⟨c₁, present₁, idle₁⟩ := mem_free.mp member
  have bound : j < w.contexts.length := length ▸ lt_length_of_get? present₁
  have present : w.get? j = some w.contexts[j] := List.getElem?_eq_getElem bound
  refine mem_free.mpr ⟨_, present, ?_⟩
  by_contra occupied
  obtain ⟨c₂, present₂, busy₂⟩ := busy present (Bool.eq_true_of_not_eq_false occupied)
  rw [present₁, Option.some.injEq] at present₂
  rw [← present₂, idle₁] at busy₂
  cases busy₂

theorem Keeps.free_subset (keeps : w.Keeps w₁) : w₁.free ⊆ w.free :=
  World.free_subset keeps.length (fun present busy => by
    obtain ⟨c₁, present₁, record⟩ := keeps.held present busy
    exact ⟨c₁, present₁, (congrArg Record.busy record).trans busy⟩)

/-- Looking at a token frees no context. -/
theorem free_look (w : World) (id : Nat) (token : String) :
    (w.modify id (Context.look token)).free ⊆ w.free := by
  refine World.free_subset (length_modify w id _) (fun {j c} present busy => ?_)
  by_cases same : j = id
  · subst same
    rw [modify_eq_put present]
    exact ⟨_, get?_put_self present, busy⟩
  · exact ⟨c, (get?_modify_ne same _).trans present, busy⟩

theorem free_stepToken {evaluate : Evaluator} (inner : evaluate.Keeps) (id : Nat) (strict : Bool)
    (token : String) (w : World) : (stepToken evaluate id strict token w).1.free ⊆ w.free :=
  ((callHook_keeps inner id token _).trans
    (handleToken_keeps inner id strict token _)).free_subset.trans (free_look w id token)

/-- The start of an evaluation takes a free context away. -/
theorem card_free_start (present : w.get? id = some c) (idle : c.busy = false) :
    (w.put id c.start).free.card < w.free.card := by
  apply Finset.card_lt_card
  refine ⟨?_, fun all => ?_⟩
  · refine World.free_subset (length_put w id _) (fun {j d} there busy => ?_)
    by_cases same : j = id
    · subst same
      exact ⟨_, get?_put_self present, rfl⟩
    · exact ⟨d, (get?_put_ne same).trans there, busy⟩
  · obtain ⟨d, there, free⟩ := mem_free.mp (all (mem_free.mpr ⟨c, present, idle⟩))
    rw [get?_put_self present, Option.some.injEq] at there
    rw [← there] at free
    cases free

theorem card_free_le (w : World) : w.free.card ≤ w.contexts.length := by
  have bound := Finset.card_filter_le (Finset.range w.contexts.length)
    (fun j => (w.get? j).any (fun c => !c.busy))
  rwa [Finset.card_range] at bound

end World

end ReversePolish
