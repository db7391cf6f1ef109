import ReversePolish.Proofs.Evaluation.Busy

/-!
What a move does to a single context.

A move of a run changes the world in one of eight ways, and most invariants concern the contexts one
by one. `Moves.alters` says once what can become of a context in a move, and which evaluation or
call is behind it; `forall_contexts_of_reach` turns what every such alteration keeps into what holds
of every context at every moment.
-/

namespace ReversePolish

namespace World

variable {w : World} {id j : Nat} {d : Context}

theorem get?_modify_cases {f : Context → Context} (there : (w.modify id f).get? j = some d) :
    ∃ c, w.get? j = some c ∧ d = if j = id then f c else c := by
  by_cases same : j = id
  · subst same
    cases present : w.get? j with
    | none =>
        rw [modify, present] at there
        cases present.symm.trans there
    | some c =>
        rw [modify_eq_put present, get?_put_self present, Option.some.injEq] at there
        exact ⟨c, rfl, by rw [if_pos rfl, there]⟩
  · rw [get?_modify_ne same] at there
    exact ⟨d, there, (if_neg same).symm⟩

theorem get?_put_cases {c e : Context} (present : w.get? id = some c)
    (there : (w.put id e).get? j = some d) :
    j = id ∧ d = e ∨ w.get? j = some d := by
  by_cases same : j = id
  · subst same
    rw [get?_put_self present, Option.some.injEq] at there
    exact .inl ⟨rfl, there.symm⟩
  · rw [get?_put_ne same] at there
    exact .inr there

end World

theorem Conf.get?_answered (conf : Conf) (w : World) (a : Answer) (j : Nat) :
    (conf.answered w a).world.get? j = w.get? j := by
  unfold Conf.answered
  split <;> rfl

theorem hookScript_get? (id : Nat) (token : String) (w : World) (j : Nat) :
    (hookScript id token w).1.get? j = w.get? j := by
  unfold hookScript
  split
  · rfl
  · split <;> rfl

/-- A call that starts no evaluation alters the context that it is made on, and no other. -/
theorem perform_get?_cases {w : World} {id j : Nat} {call : Call} {d : Context}
    (there : (perform refuseEvaluation w id call).1.get? j = some d) :
    ∃ c, w.get? j = some c ∧ (d = c ∨ j = id ∧ d = (c.perform call).1) := by
  unfold perform at there
  cases present : w.get? id with
  | none =>
      rw [present] at there
      exact ⟨d, there, .inl rfl⟩
  | some c =>
      have alone {call : Call} (put : (w.put id (c.perform call).1).get? j = some d) :
          ∃ c, w.get? j = some c ∧ (d = c ∨ j = id ∧ d = (c.perform call).1) := by
        rcases World.get?_put_cases present put with ⟨rfl, altered⟩ | other
        · exact ⟨c, present, .inr ⟨rfl, altered⟩⟩
        · exact ⟨d, other, .inl rfl⟩
      rw [present] at there
      cases call with
      | evaluate input strict =>
          have refused : (refuseEvaluation w id input strict).1.get? j = some d := there
          rw [refuseEvaluation_world] at refused
          exact ⟨d, refused, .inl rfl⟩
      | hook shared hook =>
          cases shared with
          | true => exact ⟨d, there, .inl rfl⟩
          | false => exact alone there
      | _ => exact alone there

/-! ## Alterations -/

/-- The innermost evaluation is on a context, and makes no call: the next move is its own. -/
def Conf.Proceeds (conf : Conf) (j : Nat) : Prop :=
  ∃ f fs, conf.frames = f :: fs ∧ f.id = j ∧ f.phase.steps = []

/-- What the next move may make of a context, and why. -/
inductive Conf.Alters (conf : Conf) (j : Nat) (c : Context) : Context → Prop
  | kept : Alters conf j c c
  /-- A call is answered that starts no evaluation. -/
  | called {call : Call} : conf.issued? = some (j, call) → conf.world.admits j call = false →
    Alters conf j c (c.perform call).1
  /-- A call starts an evaluation. -/
  | started {input : String} {strict : Bool} : conf.issued? = some (j, .evaluate input strict) →
    conf.world.isIdle j = true → Alters conf j c c.start
  | looked (token : String) : conf.Proceeds j → Alters conf j c (c.look token)
  | handled (stack : List Value) : conf.Proceeds j → Alters conf j c { c with stack := stack }
  | released : conf.Proceeds j → Alters conf j c c.release
  | halted : conf.Proceeds j → Alters conf j c { c with halted := true }.release
  | failed (reason : Status) : conf.Proceeds j →
    Alters conf j c { c with status := failureReason reason }.release

namespace Conf.Proceeds

variable {conf : Conf} {j : Nat}

theorem issued?_eq_none (own : conf.Proceeds j) : conf.issued? = none := by
  obtain ⟨f, fs, frames, -, silent⟩ := own
  rw [Conf.issued?, frames]
  dsimp only
  rw [silent]

theorem head?_active (own : conf.Proceeds j) : conf.active.head? = some j := by
  obtain ⟨f, fs, frames, here, -⟩ := own
  rw [Conf.active, frames, List.map_cons, List.head?_cons, here]

theorem mem_active (own : conf.Proceeds j) : j ∈ conf.active :=
  List.mem_of_head? own.head?_active

end Conf.Proceeds

/-- Every move makes of a context one of these. -/
theorem Moves.alters {conf next : Conf} (step : Moves conf next) {j : Nat} {d : Context}
    (there : next.world.get? j = some d) :
    ∃ c, conf.world.get? j = some c ∧ conf.Alters j c d := by
  cases step with
  | @answer _ id call issued direct =>
      rw [Conf.get?_answered] at there
      obtain ⟨c, present, rfl | ⟨rfl, rfl⟩⟩ := perform_get?_cases there
      · exact ⟨d, present, .kept⟩
      · exact ⟨c, present, .called issued direct⟩
  | enter issued idle =>
      obtain ⟨c, present, rfl⟩ := World.get?_modify_cases there
      refine ⟨c, present, ?_⟩
      split
      · rename_i same
        subst same
        exact .started issued idle
      · exact .kept
  | look =>
      rw [hookScript_get?] at there
      obtain ⟨c, present, rfl⟩ := World.get?_modify_cases there
      refine ⟨c, present, ?_⟩
      split
      · rename_i same
        exact .looked _ ⟨_, _, rfl, same.symm, rfl⟩
      · exact .kept
  | @handle w id _ strict _ token =>
      rcases dispatch_cases id strict token w with same | ⟨c, stack, present, changed⟩
      · rw [same] at there
        exact ⟨d, there, .kept⟩
      · rw [changed] at there
        rcases World.get?_put_cases present there with ⟨rfl, rfl⟩ | other
        · exact ⟨c, present, .handled stack ⟨_, _, rfl, rfl, rfl⟩⟩
        · exact ⟨d, other, .kept⟩
  | proceed => exact ⟨d, there, .kept⟩
  | through =>
      rw [Conf.get?_answered] at there
      obtain ⟨c, present, rfl⟩ := World.get?_modify_cases there
      refine ⟨c, present, ?_⟩
      split
      · rename_i same
        exact .released ⟨_, _, rfl, same.symm, rfl⟩
      · exact .kept
  | halt =>
      rw [Conf.get?_answered] at there
      obtain ⟨c₁, marked, rfl⟩ := World.get?_modify_cases there
      obtain ⟨c, present, rfl⟩ := World.get?_modify_cases marked
      refine ⟨c, present, ?_⟩
      split
      · rename_i same
        exact .halted ⟨_, _, rfl, same.symm, rfl⟩
      · exact .kept
  | fail =>
      rw [Conf.get?_answered] at there
      obtain ⟨c₁, marked, rfl⟩ := World.get?_modify_cases there
      obtain ⟨c, present, rfl⟩ := World.get?_modify_cases marked
      refine ⟨c, present, ?_⟩
      split
      · rename_i same
        exact .failed _ ⟨_, _, rfl, same.symm, rfl⟩
      · exact .kept

/-- The context of an evaluation that proceeds is busy, and open. -/
theorem Guarded.of_proceeds {conf : Conf} {j : Nat} {c : Context}
    (guarded : Guarded conf.world conf.active conf.history) (own : conf.Proceeds j)
    (present : conf.world.get? j = some c) : c.busy = true ∧ c.closed = false := by
  obtain ⟨c₁, present₁, isOpen, busy⟩ := guarded.get?_of_mem_active own.mem_active
  rw [present, Option.some.injEq] at present₁
  subst present₁
  exact ⟨busy, isOpen⟩

theorem World.get?_new {options : List ContextOptions} {j : Nat} {c : Context}
    (there : (World.new options).get? j = some c) : ∃ o, c = Context.new o := by
  rw [World.get?, World.new, List.getElem?_map] at there
  obtain ⟨o, -, rfl⟩ := Option.map_eq_some_iff.mp there
  exact ⟨o, rfl⟩

/-- What holds of new contexts, and is kept by every alteration, holds of every context at every
moment. -/
theorem forall_contexts_of_reach {P : Context → Prop} (new : ∀ o, P (Context.new o))
    (alter : ∀ {conf : Conf} {j : Nat} {c d : Context},
      Guarded conf.world conf.active conf.history → conf.world.get? j = some c →
        conf.Alters j c d → P c → P d)
    {options : List ContextOptions} {calls : List (Nat × Call)} {conf : Conf}
    (reached : Reach ⟨World.new options, [], calls, []⟩ conf) {j : Nat} {d : Context}
    (there : conf.world.get? j = some d) : P d := by
  induction reached generalizing d with
  | refl =>
      obtain ⟨o, rfl⟩ := World.get?_new there
      exact new o
  | tail before step ih =>
      obtain ⟨c, present, alters⟩ := step.alters there
      exact alter (Guarded.of_reach before) present alters (ih present)

end ReversePolish
