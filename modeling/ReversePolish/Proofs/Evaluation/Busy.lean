import ReversePolish.Proofs.Evaluation.CallStack

/-!
Who is busy, and who is closed, at every moment of a run.

An evaluation marks its context as busy and releases it at its end; closing marks it too, and never
releases it. `Guarded` is the invariant of the two marks: the busy contexts are the closed ones and
those with an evaluation on the call stack, no context is both, no context is twice on the call
stack, and the closed ones are those of which the history says that they were closed. Each piece of
a run keeps it, so it holds at every moment that is reached from new contexts
(`Guarded.of_reach`). What a context refuses follows from its marks alone.
-/

namespace ReversePolish

namespace World

/-- Whether there is such a context and it is busy. -/
def isBusy (w : World) (j : Nat) : Bool :=
  (w.get? j).any Context.busy

/-- Whether there is such a context and it is closed. -/
def isClosed (w : World) (j : Nat) : Bool :=
  (w.get? j).any Context.closed

/-- The marks of all contexts are the same in two worlds. -/
def SameMarks (w w₁ : World) : Prop :=
  ∀ j, w₁.isBusy j = w.isBusy j ∧ w₁.isClosed j = w.isClosed j

variable {w w₁ w₂ : World} {id j : Nat} {c d : Context}

theorem isBusy_of_get? (present : w.get? j = some c) : w.isBusy j = c.busy := by
  rw [isBusy, present, Option.any_some]

theorem isClosed_of_get? (present : w.get? j = some c) : w.isClosed j = c.closed := by
  rw [isClosed, present, Option.any_some]

theorem isBusy_put_ne (ne : j ≠ id) : (w.put id d).isBusy j = w.isBusy j := by
  rw [isBusy, get?_put_ne ne, isBusy]

theorem isClosed_put_ne (ne : j ≠ id) : (w.put id d).isClosed j = w.isClosed j := by
  rw [isClosed, get?_put_ne ne, isClosed]

theorem isClosed_put (present : w.get? id = some c) (closed : d.closed = c.closed) :
    (w.put id d).isClosed j = w.isClosed j := by
  by_cases same : j = id
  · rw [same, isClosed_of_get? (get?_put_self present), isClosed_of_get? present, closed]
  · exact isClosed_put_ne same

theorem SameMarks.refl (w : World) : w.SameMarks w :=
  fun _ => ⟨rfl, rfl⟩

theorem SameMarks.trans (left : w.SameMarks w₁) (right : w₁.SameMarks w₂) : w.SameMarks w₂ :=
  fun j => ⟨(right j).1.trans (left j).1, (right j).2.trans (left j).2⟩

theorem sameMarks_note (w : World) (e : Event) : w.SameMarks (w.note e) :=
  fun _ => ⟨rfl, rfl⟩

theorem sameMarks_put (present : w.get? id = some c) (busy : d.busy = c.busy)
    (closed : d.closed = c.closed) : w.SameMarks (w.put id d) := by
  intro j
  refine ⟨?_, isClosed_put present closed⟩
  by_cases same : j = id
  · rw [same, isBusy_of_get? (get?_put_self present), isBusy_of_get? present, busy]
  · exact isBusy_put_ne same

theorem sameMarks_modify (w : World) (id : Nat) {f : Context → Context}
    (busy : ∀ c, (f c).busy = c.busy) (closed : ∀ c, (f c).closed = c.closed) :
    w.SameMarks (w.modify id f) := by
  cases present : w.get? id with
  | none =>
      unfold modify
      rw [present]
      exact .refl w
  | some c =>
      rw [modify_eq_put present]
      exact sameMarks_put present (busy c) (closed c)

end World

/-! ## Marks and the parts of a run -/

theorem hookScript_sameMarks (id : Nat) (token : String) (w : World) :
    w.SameMarks (hookScript id token w).1 := by
  unfold hookScript
  split
  · exact .refl w
  · split
    · exact .refl w
    · exact World.sameMarks_note w _
    · exact World.sameMarks_note w _

theorem dispatch_sameMarks (id : Nat) (strict : Bool) (token : String) (w : World) :
    w.SameMarks (dispatch id strict token w).1 := by
  rcases dispatch_cases id strict token w with same | ⟨c, stack, present, changed⟩
  · rw [same]
    exact .refl w
  · rw [changed]
    exact World.sameMarks_put present rfl rfl

/-- A call that starts no evaluation and does not close leaves all marks alone. -/
theorem perform_sameMarks (w : World) (id : Nat) {call : Call} (other : call ≠ .close) :
    w.SameMarks (perform refuseEvaluation w id call).1 := by
  unfold perform
  cases present : w.get? id with
  | none => exact .refl w
  | some c =>
      have alone {call : Call} (other : call ≠ .close) :
          w.SameMarks (w.put id (c.perform call).1) :=
        World.sameMarks_put present (congrArg Record.busy (c.perform_record other))
          (congrArg Record.closed (c.perform_record other))
      cases call with
      | evaluate input strict =>
          show w.SameMarks (refuseEvaluation w id input strict).1
          rw [refuseEvaluation_world]
          exact .refl w
      | hook shared hook =>
          cases shared with
          | true => exact fun _ => ⟨rfl, rfl⟩
          | false => exact alone other
      | _ => exact alone other

theorem perform_close (evaluate : Evaluator) {w : World} {id : Nat} {c : Context}
    (present : w.get? id = some c) :
    perform evaluate w id .close = (w.put id c.close.1, c.close.2) := by
  unfold perform
  rw [present]
  rfl

/-! ## Refusals -/

section Refusals

variable {w : World} {id : Nat} {c : Context} (present : w.get? id = some c)
include present

/-- A context that is closed refuses to evaluate. -/
theorem perform_evaluate_of_closed (closed : c.closed = true) (n : Nat) (input : String)
    (strict : Bool) :
    perform (evaluateAt n) w id (.evaluate input strict) = (w, .closed) := by
  have other : w.isIdle id = false := by
    rw [World.isIdle, present, Option.any_some, closed]
    rfl
  rw [perform_evaluate _ present, evaluateAt_of_not_idle n other, refuseEvaluation, present]
  exact if_pos closed

/-- A context that is busy and open refuses to evaluate. -/
theorem perform_evaluate_of_busy (isOpen : c.closed = false) (busy : c.busy = true) (n : Nat)
    (input : String) (strict : Bool) :
    perform (evaluateAt n) w id (.evaluate input strict) = (w, .busy) := by
  have other : w.isIdle id = false := by
    rw [World.isIdle, present, Option.any_some, busy, Bool.not_true, Bool.and_false]
  rw [perform_evaluate _ present, evaluateAt_of_not_idle n other, refuseEvaluation, present]
  exact if_neg (Bool.eq_false_iff.mp isOpen)

/-- Closing again is no failure. -/
theorem perform_close_of_closed (evaluate : Evaluator) (closed : c.closed = true) :
    perform evaluate w id .close = (w, .ok) := by
  rw [perform_close evaluate present, Context.close, if_pos closed, World.put_get? present]

/-- A context that is busy and open refuses to be closed. -/
theorem perform_close_of_busy (evaluate : Evaluator) (isOpen : c.closed = false)
    (busy : c.busy = true) : perform evaluate w id .close = (w, .busy) := by
  rw [perform_close evaluate present, Context.close, if_neg (Bool.eq_false_iff.mp isOpen),
    if_pos busy, World.put_get? present]

end Refusals

/-! ## The invariant -/

/-- What the marks of the contexts say about the call stack and the past. -/
structure Guarded (w : World) (active : List Nat) (history : List Answer) : Prop where
  busy_iff : ∀ j, w.isBusy j = true ↔ w.isClosed j = true ∨ j ∈ active
  apart : ∀ j, w.isClosed j = true → j ∉ active
  distinct : active.Nodup
  closed_iff : ∀ j, w.isClosed j = true ↔ ⟨j, .close, .ok⟩ ∈ history

namespace Guarded

variable {w w₁ : World} {active : List Nat} {history : List Answer} {id : Nat} {c d : Context}

theorem new (options : List ContextOptions) : Guarded (World.new options) [] [] := by
  have fresh (j : Nat) :
      (World.new options).isBusy j = false ∧ (World.new options).isClosed j = false := by
    unfold World.isBusy World.isClosed World.get? World.new
    rw [List.getElem?_map]
    cases options[j]? <;> exact ⟨rfl, rfl⟩
  constructor
  · intro j
    rw [(fresh j).1, (fresh j).2]
    simp
  · intro j _
    exact List.not_mem_nil
  · exact List.nodup_nil
  · intro j
    rw [(fresh j).2]
    simp

theorem sameMarks (guarded : Guarded w active history) (same : w.SameMarks w₁) :
    Guarded w₁ active history where
  busy_iff j := by
    rw [(same j).1, (same j).2]
    exact guarded.busy_iff j
  apart j closed := guarded.apart j ((same j).2 ▸ closed)
  distinct := guarded.distinct
  closed_iff j := by
    rw [(same j).2]
    exact guarded.closed_iff j

/-- An answer that closes nothing for the first time. -/
theorem answer (guarded : Guarded w active history) {a : Answer}
    (old : a = ⟨a.id, .close, .ok⟩ → w.isClosed a.id = true) :
    Guarded w active (a :: history) where
  busy_iff := guarded.busy_iff
  apart := guarded.apart
  distinct := guarded.distinct
  closed_iff j := by
    rw [List.mem_cons, ← guarded.closed_iff j]
    constructor
    · exact .inr
    · rintro (new | before)
      · subst new
        exact old rfl
      · exact before

theorem not_mem_active (guarded : Guarded w active history) (present : w.get? id = some c)
    (idle : c.busy = false) : id ∉ active := by
  intro inside
  have busy := (guarded.busy_iff id).mpr (.inr inside)
  rw [World.isBusy_of_get? present, idle] at busy
  cases busy

/-- An evaluation starts. -/
theorem enter (guarded : Guarded w active history) (idle : w.isIdle id = true) :
    Guarded (w.modify id Context.start) (id :: active) history := by
  obtain ⟨c, present, isOpen, free⟩ := World.isIdle_iff.mp idle
  have fresh := guarded.not_mem_active present free
  have there := World.get?_put_self (d := c.start) present
  have closed (j : Nat) : (w.put id c.start).isClosed j = w.isClosed j :=
    World.isClosed_put present rfl
  rw [World.modify_eq_put present]
  constructor
  · intro j
    rw [closed, List.mem_cons]
    by_cases same : j = id
    · rw [same, World.isBusy_of_get? there]
      exact iff_of_true rfl (.inr (.inl rfl))
    · rw [World.isBusy_put_ne same, guarded.busy_iff]
      simp only [same, false_or]
  · intro j shut
    rw [closed] at shut
    rw [List.mem_cons, not_or]
    refine ⟨?_, guarded.apart j shut⟩
    rintro rfl
    rw [World.isClosed_of_get? present, isOpen] at shut
    cases shut
  · exact List.nodup_cons.mpr ⟨fresh, guarded.distinct⟩
  · intro j
    rw [closed]
    exact guarded.closed_iff j

/-- The innermost evaluation ends. -/
theorem leave (guarded : Guarded w (id :: active) history) :
    Guarded (w.modify id Context.release) active history := by
  have inside : id ∈ id :: active := List.mem_cons_self
  have busy := (guarded.busy_iff id).mpr (.inr inside)
  have fresh : id ∉ active := (List.nodup_cons.mp guarded.distinct).1
  obtain ⟨c, present, -⟩ := (Option.any_eq_true ..).mp busy
  have there := World.get?_put_self (d := c.release) present
  have closed (j : Nat) : (w.put id c.release).isClosed j = w.isClosed j :=
    World.isClosed_put present rfl
  rw [World.modify_eq_put present]
  constructor
  · intro j
    rw [closed]
    by_cases same : j = id
    · rw [same, World.isBusy_of_get? there]
      refine iff_of_false (by rintro ⟨⟩) ?_
      rintro (shut | twice)
      · exact guarded.apart id shut inside
      · exact fresh twice
    · rw [World.isBusy_put_ne same, guarded.busy_iff, List.mem_cons]
      simp only [same, false_or]
  · intro j shut twice
    rw [closed] at shut
    exact guarded.apart j shut (List.mem_cons_of_mem id twice)
  · exact (List.nodup_cons.mp guarded.distinct).2
  · intro j
    rw [closed]
    exact guarded.closed_iff j

/-- An idle context is closed. -/
theorem close (guarded : Guarded w active history) (present : w.get? id = some c)
    (idle : c.busy = false) (busy : d.busy = true) (closed : d.closed = true) :
    Guarded (w.put id d) active (⟨id, .close, .ok⟩ :: history) := by
  have fresh := guarded.not_mem_active present idle
  have there := World.get?_put_self (d := d) present
  constructor
  · intro j
    by_cases same : j = id
    · rw [same, World.isBusy_of_get? there, World.isClosed_of_get? there]
      exact iff_of_true busy (.inl closed)
    · rw [World.isBusy_put_ne same, World.isClosed_put_ne same]
      exact guarded.busy_iff j
  · intro j shut
    by_cases same : j = id
    · rw [same]
      exact fresh
    · rw [World.isClosed_put_ne same] at shut
      exact guarded.apart j shut
  · exact guarded.distinct
  · intro j
    rw [List.mem_cons]
    by_cases same : j = id
    · rw [same, World.isClosed_of_get? there]
      exact iff_of_true closed (.inl rfl)
    · rw [World.isClosed_put_ne same, guarded.closed_iff j]
      simp [same]

/-- A call that starts no evaluation is answered. -/
theorem performed (guarded : Guarded w active history) (id : Nat) (call : Call) :
    Guarded (perform refuseEvaluation w id call).1 active
      (⟨id, call, (perform refuseEvaluation w id call).2⟩ :: history) := by
  by_cases closing : call = .close
  · subst closing
    cases present : w.get? id with
    | none =>
        have nobody : perform refuseEvaluation w id .close = (w, .noContext) := by
          unfold perform
          rw [present]
        rw [nobody]
        exact guarded.answer (by rintro ⟨⟩)
    | some c =>
        cases closed : c.closed with
        | true =>
            rw [perform_close_of_closed present refuseEvaluation closed]
            exact guarded.answer (fun _ => (World.isClosed_of_get? present).trans closed)
        | false =>
            cases busy : c.busy with
            | true =>
                rw [perform_close_of_busy present refuseEvaluation closed busy]
                exact guarded.answer (by rintro ⟨⟩)
            | false =>
                rw [perform_close refuseEvaluation present, Context.close,
                  if_neg (Bool.eq_false_iff.mp closed), if_neg (Bool.eq_false_iff.mp busy)]
                exact guarded.close present busy rfl rfl
  · refine (guarded.sameMarks (perform_sameMarks w id closing)).answer ?_
    intro same
    exact absurd (congrArg Answer.call same) closing

/-- The caller goes on with a reply. -/
theorem answered (conf : Conf) {a : Answer} (guarded : Guarded w conf.active (a :: conf.history)) :
    Guarded (conf.answered w a).world (conf.answered w a).active (conf.answered w a).history := by
  obtain ⟨before, frames, todo, history⟩ := conf
  cases frames with
  | nil => exact guarded
  | cons f fs => exact guarded.sameMarks (World.sameMarks_note w _)

/-- An evaluation ends, having changed nothing about the marks in its last piece. -/
theorem finished {fs : List Frame} {todo : List (Nat × Call)} {input : String} {strict : Bool}
    {reply : Reply} (guarded : Guarded w (id :: fs.map Frame.id) history)
    (same : w.SameMarks w₁) :
    let conf := Conf.answered ⟨w, fs, todo, history⟩ (w₁.modify id Context.release)
      ⟨id, .evaluate input strict, reply⟩
    Guarded conf.world conf.active conf.history :=
  answered ⟨w, fs, todo, history⟩ ((guarded.sameMarks same).leave.answer (by rintro ⟨⟩))

/-- Every piece of a run keeps the invariant. -/
theorem moves {conf conf₁ : Conf} (step : Moves conf conf₁)
    (guarded : Guarded conf.world conf.active conf.history) :
    Guarded conf₁.world conf₁.active conf₁.history := by
  cases step with
  | @answer _ id call => exact Guarded.answered conf (guarded.performed id call)
  | enter _ idle => exact guarded.enter idle
  | @look w id _ _ _ token =>
      have looked := w.sameMarks_modify id (f := Context.look token) (fun _ => rfl) (fun _ => rfl)
      exact guarded.sameMarks (looked.trans (hookScript_sameMarks id token _))
  | @handle w id _ strict _ token =>
      exact guarded.sameMarks (dispatch_sameMarks id strict token w)
  | proceed => exact guarded
  | through => exact guarded.finished (.refl _)
  | halt => exact guarded.finished (World.sameMarks_modify _ _ (fun _ => rfl) (fun _ => rfl))
  | fail => exact guarded.finished (World.sameMarks_modify _ _ (fun _ => rfl) (fun _ => rfl))

/-- The invariant holds at every moment of a run that starts with new contexts. -/
theorem of_reach {options : List ContextOptions} {calls : List (Nat × Call)} {conf : Conf}
    (reached : Reach ⟨World.new options, [], calls, []⟩ conf) :
    Guarded conf.world conf.active conf.history := by
  induction reached with
  | refl => exact new options
  | tail _ step ih => exact ih.moves step

end Guarded

/-! ## What calls answer -/

/-- A run of tokens answers that it went well, or where it failed. -/
theorem runTokens_reply (evaluate : Evaluator) (id : Nat) (strict : Bool) (position : Nat)
    (tokens : List String) (w : World) :
    (runTokens evaluate id strict position tokens w).2 = .ok ∨
      ∃ fault, (runTokens evaluate id strict position tokens w).2 = .failed fault := by
  induction tokens generalizing position w with
  | nil => exact .inl rfl
  | cons token rest ih =>
      rw [runTokens_cons]
      split
      · exact ih _ _
      · exact .inl rfl
      · exact .inr ⟨_, rfl⟩

/-- An idle context evaluates. -/
theorem perform_evaluate_reply {w : World} {id : Nat} {c : Context}
    (present : w.get? id = some c) (isOpen : c.closed = false) (idle : c.busy = false) (n : Nat)
    (input : String) (strict : Bool) :
    (perform (evaluateAt (n + 1)) w id (.evaluate input strict)).2 = .ok ∨
      ∃ fault, (perform (evaluateAt (n + 1)) w id (.evaluate input strict)).2 = .failed fault := by
  rw [perform_evaluate _ present, evaluateAt_succ_of_idle n present isOpen idle]
  exact runTokens_reply (evaluateAt n) id strict 0 (Token.tokenize input) (w.put id c.start)

/-- An open context does not answer that it is closed. -/
theorem perform_evaluate_ne_closed {w : World} {id : Nat} {c : Context}
    (present : w.get? id = some c) (isOpen : c.closed = false) (n : Nat) (input : String)
    (strict : Bool) : (perform (evaluateAt n) w id (.evaluate input strict)).2 ≠ .closed := by
  intro shut
  cases busy : c.busy with
  | true =>
      rw [perform_evaluate_of_busy present isOpen busy] at shut
      cases shut
  | false =>
      cases n with
      | zero =>
          rw [perform_evaluate _ present] at shut
          unfold evaluateAt refuseEvaluation at shut
          rw [present] at shut
          dsimp only at shut
          rw [if_neg (Bool.eq_false_iff.mp isOpen)] at shut
          cases shut
      | succ n =>
          rcases perform_evaluate_reply present isOpen busy n input strict with
            ok | ⟨fault, failed⟩
          · cases ok.symm.trans shut
          · cases failed.symm.trans shut

/-- A context that is not busy, or closed, does not answer that it is busy. -/
theorem call_ne_busy {w : World} {id : Nat} (settled : w.isBusy id = true → w.isClosed id = true)
    (input : String) (strict : Bool) :
    (w.call id (.evaluate input strict)).2 ≠ .busy ∧ (w.call id .close).2 ≠ .busy := by
  unfold World.call
  cases present : w.get? id with
  | none =>
      unfold perform
      rw [present]
      exact ⟨by rintro ⟨⟩, by rintro ⟨⟩⟩
  | some c =>
      rw [World.isBusy_of_get? present, World.isClosed_of_get? present] at settled
      cases closed : c.closed with
      | true =>
          rw [perform_evaluate_of_closed present closed, perform_close_of_closed present _ closed]
          exact ⟨by rintro ⟨⟩, by rintro ⟨⟩⟩
      | false =>
          have idle : c.busy = false := by
            rw [closed] at settled
            exact Bool.eq_false_iff.mpr (fun busy => by cases settled busy)
          -- There is a context, so at least one evaluation is admitted.
          obtain ⟨n, level⟩ := World.length_eq_succ present
          constructor
          · intro again
            rw [level] at again
            rcases perform_evaluate_reply present closed idle n input strict with
              ok | ⟨fault, failed⟩
            · cases ok.symm.trans again
            · cases failed.symm.trans again
          · rw [perform_close _ present, Context.close, if_neg (Bool.eq_false_iff.mp closed),
              if_neg (Bool.eq_false_iff.mp idle)]
            rintro ⟨⟩

/-! ## The protocol -/

/-- The rules for evaluating and closing at a moment of a run. A call is one that the callbacks make
at whichever depth `n`, or one that is made from outside (`World.call`). -/
structure Conf.Protocol (conf : Conf) : Prop where
  /-- The busy contexts are those that are closed or on the call stack. -/
  busy_iff : ∀ {j : Nat} {c : Context}, conf.world.get? j = some c →
    (c.busy = true ↔ c.closed = true ∨ j ∈ conf.active)
  /-- Between the calls from outside, the busy contexts are those that are closed. -/
  between : conf.frames = [] → ∀ {j : Nat} {c : Context}, conf.world.get? j = some c →
    (c.busy = true ↔ c.closed = true)
  /-- A context on the call stack answers that it is busy, and nothing changes. -/
  inside : ∀ j ∈ conf.active, ∀ (n : Nat) (input : String) (strict : Bool),
    perform (evaluateAt n) conf.world j (.evaluate input strict) = (conf.world, .busy) ∧
      perform (evaluateAt n) conf.world j .close = (conf.world, .busy)
  /-- A call from outside is never answered so. -/
  outside : conf.frames = [] → ∀ (j : Nat) (input : String) (strict : Bool),
    (conf.world.call j (.evaluate input strict)).2 ≠ .busy ∧ (conf.world.call j .close).2 ≠ .busy
  /-- The contexts that answer that they are closed are those that were closed before. -/
  closed_iff : ∀ (j n : Nat) (input : String) (strict : Bool),
    (perform (evaluateAt n) conf.world j (.evaluate input strict)).2 = .closed ↔
      ⟨j, .close, .ok⟩ ∈ conf.history
  /-- Nothing changes in a closed context, and closing it again is no failure. -/
  afterwards : ∀ j, ⟨j, .close, .ok⟩ ∈ conf.history → ∀ (n : Nat) (input : String) (strict : Bool),
    perform (evaluateAt n) conf.world j (.evaluate input strict) = (conf.world, .closed) ∧
      perform (evaluateAt n) conf.world j .close = (conf.world, .ok)
  /-- The run goes on to the answer of the call that is made now. -/
  answers : ∀ {id : Nat} {call : Call}, conf.issued? = some (id, call) →
    ∃ answers, Reach conf ((conf.extend answers).answered (conf.world.call id call).1
      ⟨id, call, (conf.world.call id call).2⟩)
  /-- There is no other way to go on. -/
  determined : ∀ {left right : Conf}, Moves conf left → Moves conf right → left = right

namespace Guarded

variable {w : World} {active : List Nat} {history : List Answer} {j : Nat} {c : Context}

theorem busy_iff_of_get? (guarded : Guarded w active history) (present : w.get? j = some c) :
    c.busy = true ↔ c.closed = true ∨ j ∈ active := by
  have marks := guarded.busy_iff j
  rwa [World.isBusy_of_get? present, World.isClosed_of_get? present] at marks

/-- There is a context for each evaluation on the call stack; it is busy, and open. -/
theorem get?_of_mem_active (guarded : Guarded w active history) (inside : j ∈ active) :
    ∃ c, w.get? j = some c ∧ c.closed = false ∧ c.busy = true := by
  obtain ⟨c, present, busy⟩ :=
    (Option.any_eq_true ..).mp ((guarded.busy_iff j).mpr (.inr inside))
  refine ⟨c, present, Bool.eq_false_iff.mpr (fun closed => ?_), busy⟩
  exact guarded.apart j ((World.isClosed_of_get? present).trans closed) inside

theorem closed_iff_evaluate (guarded : Guarded w active history) (j n : Nat) (input : String)
    (strict : Bool) :
    (perform (evaluateAt n) w j (.evaluate input strict)).2 = .closed ↔
      ⟨j, .close, .ok⟩ ∈ history := by
  rw [← guarded.closed_iff j]
  cases present : w.get? j with
  | none =>
      unfold perform World.isClosed
      rw [present]
      exact iff_of_false (by rintro ⟨⟩) (by rintro ⟨⟩)
  | some c =>
      rw [World.isClosed_of_get? present]
      cases closed : c.closed with
      | true =>
          rw [perform_evaluate_of_closed present closed]
          exact iff_of_true rfl rfl
      | false =>
          exact iff_of_false (perform_evaluate_ne_closed present closed n input strict)
            (by rintro ⟨⟩)

end Guarded

/-- Whatever new contexts are asked to do, and whatever their callbacks do on whichever of them, the
rules for evaluating and closing are observed at every moment. -/
theorem protocol_of_reach {options : List ContextOptions} {calls : List (Nat × Call)} {conf : Conf}
    (reached : Reach ⟨World.new options, [], calls, []⟩ conf) : conf.Protocol := by
  have guarded := Guarded.of_reach reached
  have idle (outside : conf.frames = []) (j : Nat) : j ∉ conf.active := by
    rw [Conf.active, outside]
    exact List.not_mem_nil
  constructor
  · exact guarded.busy_iff_of_get?
  · intro outside j c present
    rw [guarded.busy_iff_of_get? present]
    exact or_iff_left (idle outside j)
  · intro j inside n input strict
    obtain ⟨c, present, isOpen, busy⟩ := guarded.get?_of_mem_active inside
    exact ⟨perform_evaluate_of_busy present isOpen busy n input strict,
      perform_close_of_busy present _ isOpen busy⟩
  · intro outside j input strict
    refine call_ne_busy (fun busy => ?_) input strict
    exact ((guarded.busy_iff j).mp busy).resolve_right (idle outside j)
  · exact guarded.closed_iff_evaluate
  · intro j before n input strict
    obtain ⟨c, present, closed⟩ := (Option.any_eq_true ..).mp ((guarded.closed_iff j).mpr before)
    exact ⟨perform_evaluate_of_closed present closed n input strict,
      perform_close_of_closed present _ closed⟩
  · exact reach_call
  · exact Moves.unique

/-- Two contexts whose hooks evaluate on each other. -/
def crossedWorld : World :=
  World.new
    [{ hook := some (.script "a" [.on (some 1) (.evaluate "2" false), .on none .close]) },
      { hook := some (.script "b" [.on (some 0) (.evaluate "3" true)]) }]

/-- The second hook asks the first context, which is on the call stack below it. -/
theorem protocol_of_reach_crossed :
    ∃ conf, Reach ⟨crossedWorld, [], [(0, .evaluate "1" false), (1, .close)], []⟩ conf ∧
      conf.active = [1, 0] ∧ conf.issued? = some (0, .evaluate "3" true) ∧ conf.Protocol := by
  have outer : Token.tokenize "1" = ["1"] := by decide +kernel
  have inner : Token.tokenize "2" = ["2"] := by decide +kernel
  have entered :
      Reach ⟨crossedWorld, [], [(0, .evaluate "1" false), (1, .close)], []⟩ _ :=
    .single (.enter rfl rfl)
  rw [outer] at entered
  have nested := (entered.tail .look).tail (.enter rfl rfl)
  rw [inner] at nested
  have reached := nested.tail .look
  exact ⟨_, reached, rfl, rfl, protocol_of_reach reached⟩

end ReversePolish
