import ReversePolish.Proofs.Evaluation.Alteration
import ReversePolish.Proofs.Evaluation.Concatenation
import ReversePolish.Proofs.Evaluation.Termination
import ReversePolish.Proofs.Operator.Library

/-!
What a context remembers of an evaluation is what the evaluation answered.

An evaluation ends in one of three ways: all of its tokens were handled, one of them halted it, or
one of them failed. The reply does not tell the first two apart, and the context remembers more than
the reply says; `Ending.Recorded` states what belongs together in each way, and where the token in
question stands. Its parts come from the run of tokens: `advance` up to the token, `stepToken` at
it, and the record that no callback can touch in between (`Record.underway`).

The rest is about everything else that happens to a context. Only the evaluations of a context that
are admitted change its verdict, move by move (`Conf.Alters.verdict_cases`), and at no moment does a
context remember a failure together with a halt.
-/

namespace ReversePolish

/-- What a context remembers of its last evaluation. -/
structure Verdict where
  status : Status
  halted : Bool
  lastToken : String
  deriving DecidableEq, Repr

def Context.verdict (c : Context) : Verdict :=
  ⟨c.status, c.halted, c.lastToken⟩

def World.verdict? (w : World) (id : Nat) : Option Verdict :=
  (w.get? id).map Context.verdict

theorem World.verdict?_of_get? {w : World} {id : Nat} {c : Context}
    (present : w.get? id = some c) : w.verdict? id = some c.verdict := by
  rw [World.verdict?, present, Option.map_some]

/-- Worlds of the same size in which a context of the one is remembered as in the other. -/
theorem World.verdict?_eq {w w₁ : World} {j : Nat}
    (length : w₁.contexts.length = w.contexts.length)
    (same : ∀ {d}, w₁.get? j = some d → ∃ c, w.get? j = some c ∧ d.verdict = c.verdict) :
    w₁.verdict? j = w.verdict? j := by
  cases there : w₁.get? j with
  | none =>
      have absent : w.get? j = none := by
        rw [World.get?, List.getElem?_eq_none_iff] at there ⊢
        rwa [length] at there
      rw [World.verdict?, there, World.verdict?, absent]
  | some d =>
      obtain ⟨c, present, remembered⟩ := same there
      rw [World.verdict?_of_get? there, World.verdict?_of_get? present, remembered]

/-! ## The token that ends a run -/

/-- A token ends a run with an outcome: those before it proceed. If it calls a callback, the outcome
is the one that the callback reports. -/
structure StopsAt (evaluate : Evaluator) (id : Nat) (strict : Bool) (tokens : List String)
    (w : World) (position : Nat) (token : String) (outcome : Outcome) : Prop where
  here : tokens[position]? = some token
  before : ∃ w₁, advance evaluate id strict (tokens.take position) w = some w₁ ∧
    (stepToken evaluate id strict token w₁).2 = outcome ∧
    ∀ callback,
      callback? id token (callHook evaluate id token (w₁.modify id (Context.look token))) =
        some callback → callback.outcome = outcome

/-- The outcome of a token that calls a callback is that of the callback. -/
theorem handleToken_outcome {evaluate : Evaluator} {id : Nat} {strict : Bool} {token : String}
    {w : World} {callback : Callback} (called : callback? id token w = some callback) :
    (handleToken evaluate id strict token w).2 = callback.outcome := by
  rw [handleToken_eq_runScript, dispatch, called]

theorem callback?_of_lookup? {w : World} {id : Nat} {c : Context} {token name : String}
    {arity : Nat} {callback : Callback} (present : w.get? id = some c)
    (word : Token.isLiteral token = false)
    (found : c.operators.lookup? token = some (.custom name arity callback))
    (enough : arity ≤ c.stack.length) : callback? id token w = some callback := by
  simp only [callback?, present, word, found, Bool.false_eq_true, if_false]
  exact if_neg (Nat.not_lt.mpr enough)

theorem failureReason_ne_ok (reason : Status) : failureReason reason ≠ .ok := by
  unfold failureReason
  split
  · rintro ⟨⟩
  · assumption

section Run

variable {evaluate : Evaluator} {id : Nat} {strict : Bool}

/-- A run that does not get through stops at one of its tokens. -/
theorem exists_stop_of_advance {tokens : List String} {w : World}
    (stop : advance evaluate id strict tokens w = none) :
    ∃ position token w₁ w₂ outcome, tokens[position]? = some token ∧
      advance evaluate id strict (tokens.take position) w = some w₁ ∧
      stepToken evaluate id strict token w₁ = (w₂, outcome) ∧ outcome ≠ .proceed := by
  induction tokens generalizing w with
  | nil => cases stop
  | cons first rest ih =>
      unfold advance at stop
      cases stepped : stepToken evaluate id strict first w with
      | mk w₁ outcome =>
          rw [stepped] at stop
          cases outcome with
          | proceed =>
              obtain ⟨position, token, w₂, w₃, outcome, here, through, stops, ends⟩ := ih stop
              refine ⟨position + 1, token, w₂, w₃, outcome, here, ?_, stops, ends⟩
              rw [List.take_succ_cons, advance, stepped]
              exact through
          | halt => exact ⟨0, first, w, w₁, .halt, rfl, rfl, stepped, by rintro ⟨⟩⟩
          | fail reason => exact ⟨0, first, w, w₁, .fail reason, rfl, rfl, stepped, by rintro ⟨⟩⟩

/-- A run up to the token that ends it. -/
theorem runTokens_of_stop_at {tokens : List String} {position : Nat} {token : String}
    {w w₁ : World} (here : tokens[position]? = some token)
    (through : advance evaluate id strict (tokens.take position) w = some w₁) :
    runTokens evaluate id strict 0 tokens w =
      runTokens evaluate id strict position (token :: tokens.drop (position + 1)) w₁ := by
  obtain ⟨bound, same⟩ := List.getElem?_eq_some_iff.mp here
  have split : tokens = tokens.take position ++ token :: tokens.drop (position + 1) := by
    rw [← same, List.getElem_cons_drop, List.take_append_drop]
  have run := runTokens_append_of_advance through 0 (token :: tokens.drop (position + 1))
  rw [← split, Nat.zero_add, List.length_take_of_le (Nat.le_of_lt bound)] at run
  exact run

theorem stopsAt_of_step {tokens : List String} {position : Nat} {token : String} {w w₁ w₂ : World}
    {outcome : Outcome} (here : tokens[position]? = some token)
    (through : advance evaluate id strict (tokens.take position) w = some w₁)
    (stepped : stepToken evaluate id strict token w₁ = (w₂, outcome)) :
    StopsAt evaluate id strict tokens w position token outcome := by
  have answer : (stepToken evaluate id strict token w₁).2 = outcome := by rw [stepped]
  refine ⟨here, w₁, through, answer, fun callback called => ?_⟩
  rw [← answer, stepToken, handleToken_outcome called]

end Run

/-! ## The three ways to end -/

/-- How an evaluation ends. -/
inductive Ending where
  | through
  | halted
  | failed
  deriving DecidableEq, Repr

/-- What belongs to an evaluation that ends in a way: its reply, what the context remembers, and the
run that led there. -/
def Ending.Recorded (w : World) (id : Nat) (input : String) (strict : Bool) :
    Ending → Prop :=
  let tokens := Token.tokenize input
  -- the evaluation that callbacks are given
  let inner := evaluateAt (w.contexts.length - 1)
  let started := w.modify id Context.start
  let reply := (w.evaluate id input strict).2
  let left := (w.evaluate id input strict).1.verdict? id
  fun
  | .through =>
    reply = .ok ∧ left = some ⟨.ok, false, tokens.getLastD ""⟩ ∧
      (advance inner id strict tokens started).isSome = true
  | .halted =>
    ∃ position token, reply = .ok ∧ left = some ⟨.ok, true, token⟩ ∧
      StopsAt inner id strict tokens started position token .halt
  | .failed =>
    ∃ position token reason, reply = .failed ⟨failureReason reason, token, position⟩ ∧
      failureReason reason ≠ .ok ∧ left = some ⟨failureReason reason, false, token⟩ ∧
      StopsAt inner id strict tokens started position token (.fail reason)

theorem World.verdict?_release {w : World} {id : Nat} {c : Context}
    (present : w.get? id = some c) :
    (w.modify id Context.release).verdict? id = some c.verdict := by
  rw [World.modify_eq_put present, World.verdict?_of_get? (World.get?_put_self present)]
  rfl

theorem World.verdict?_modify_release {w : World} {id : Nat} {c : Context}
    (present : w.get? id = some c) (f : Context → Context) :
    ((w.modify id f).modify id Context.release).verdict? id = some (f c).verdict := by
  rw [World.modify_eq_put present]
  exact World.verdict?_release (World.get?_put_self present)

theorem Context.verdict_of_underway {c : Context} {token : String}
    (underway : c.record = .underway token) :
    c.status = .ok ∧ c.halted = false ∧ c.lastToken = token := by
  rw [Context.record, Record.underway, Record.mk.injEq] at underway
  exact ⟨underway.1, underway.2.1, underway.2.2.1⟩

section Whole

variable {w : World} {id : Nat} {c : Context} (present : w.get? id = some c)
  (isOpen : c.closed = false) (idle : c.busy = false) (input : String) (strict : Bool)
include present isOpen idle

theorem evaluate_eq_finish_modify :
    w.evaluate id input strict =
      finish id (runTokens (evaluateAt (w.contexts.length - 1)) id strict 0 (Token.tokenize input)
        (w.modify id Context.start)) := by
  obtain ⟨n, level⟩ := World.length_eq_succ present
  rw [World.modify_eq_put present, World.evaluate, level, Nat.add_sub_cancel,
    evaluateAt_succ_of_idle n present isOpen idle]

/-- An evaluation that is admitted ends in one of the ways. -/
theorem exists_ending : ∃ ending : Ending, ending.Recorded w id input strict := by
  have started : (w.modify id Context.start).get? id = some c.start := by
    rw [World.modify_eq_put present]
    exact World.get?_put_self present
  have inner := evaluateAt_keeps (w.contexts.length - 1)
  have evaluated := evaluate_eq_finish_modify present isOpen idle input strict
  unfold finish at evaluated
  cases through : advance (evaluateAt (w.contexts.length - 1)) id strict (Token.tokenize input)
      (w.modify id Context.start) with
  | some w₁ =>
      obtain ⟨d, present₁, underway⟩ :=
        advance_underway inner started (c.record_start isOpen) through
      obtain ⟨status, halted, last⟩ := Context.verdict_of_underway underway
      have left := World.verdict?_release present₁
      rw [runTokens_of_advance through] at evaluated
      rw [Context.verdict, status, halted, last] at left
      refine ⟨.through, ?_, ?_, ?_⟩
      · rw [evaluated]
      · rw [evaluated]
        exact left
      · rw [through]
        rfl
  | none =>
      obtain ⟨position, token, w₁, w₂, outcome, here, before, stepped, ends⟩ :=
        exists_stop_of_advance through
      obtain ⟨d, present₁, underway⟩ :=
        advance_underway inner started (c.record_start isOpen) before
      obtain ⟨e, present₂, underway₂⟩ :=
        @stepToken_underway _ id strict inner _ _ _ present₁ underway token
      obtain ⟨status, halted, last⟩ := Context.verdict_of_underway underway₂
      have stops := stopsAt_of_step here before stepped
      rw [stepped] at present₂
      rw [runTokens_of_stop_at here before, runTokens_cons, stepped] at evaluated
      cases outcome with
      | proceed => exact absurd rfl ends
      | halt =>
          have left := World.verdict?_modify_release present₂ (fun c => { c with halted := true })
          rw [Context.verdict, status, last] at left
          refine ⟨.halted, position, token, ?_, ?_, stops⟩
          · rw [evaluated]
          · rw [evaluated]
            exact left
      | fail reason =>
          have left :=
            World.verdict?_modify_release present₂ (fun c => { c with status := failureReason reason })
          rw [Context.verdict, halted, last] at left
          refine ⟨.failed, position, token, reason, ?_, failureReason_ne_ok reason, ?_, stops⟩
          · rw [evaluated]
          · rw [evaluated]
            exact left

end Whole

/-- No evaluation ends in two ways: the reply tells a failure, and the context a halt. -/
theorem Ending.Recorded.unique {w : World} {id : Nat} {input : String} {strict : Bool}
    {one other : Ending} (left : one.Recorded w id input strict)
    (right : other.Recorded w id input strict) : one = other := by
  cases one with
  | through =>
      obtain ⟨ok, running, -⟩ := left
      cases other with
      | through => rfl
      | halted =>
          obtain ⟨position, token, -, halted, -⟩ := right
          cases running.symm.trans halted
      | failed =>
          obtain ⟨position, token, reason, failed, -⟩ := right
          cases ok.symm.trans failed
  | halted =>
      obtain ⟨position, token, ok, halted, -⟩ := left
      cases other with
      | through =>
          obtain ⟨-, running, -⟩ := right
          cases running.symm.trans halted
      | halted => rfl
      | failed =>
          obtain ⟨position, token, reason, failed, -⟩ := right
          cases ok.symm.trans failed
  | failed =>
      obtain ⟨position, token, reason, failed, -⟩ := left
      cases other with
      | through => cases right.1.symm.trans failed
      | halted =>
          obtain ⟨position, token, ok, -⟩ := right
          cases ok.symm.trans failed
      | failed => rfl

/-! ## Verdicts along a run -/

/-- No call on a context that starts no evaluation touches its verdict; closing does not either. -/
theorem Context.perform_verdict (c : Context) (call : Call) :
    (c.perform call).1.verdict = c.verdict := by
  by_cases closing : call = .close
  · subst closing
    show c.close.1.verdict = c.verdict
    unfold Context.close
    split
    · rfl
    · split <;> rfl
  · have record := c.perform_record closing
    rw [Context.record, Context.record, Record.mk.injEq] at record
    rw [Context.verdict, Context.verdict, record.1, record.2.1, record.2.2.1]

/-- A verdict changes at the start of an evaluation, and by the moves of that evaluation itself. -/
theorem Conf.Alters.verdict_cases {conf : Conf} {j : Nat} {c d : Context}
    (alters : conf.Alters j c d) :
    d.verdict = c.verdict ∨
      (∃ input strict, conf.issued? = some (j, .evaluate input strict) ∧
        conf.world.isIdle j = true) ∨ conf.Proceeds j := by
  cases alters with
  | kept => exact .inl rfl
  | called issued direct => exact .inl (c.perform_verdict _)
  | started issued idle => exact .inr (.inl ⟨_, _, issued, idle⟩)
  | looked token own => exact .inr (.inr own)
  | handled stack own => exact .inl rfl
  | released own => exact .inl rfl
  | halted own => exact .inr (.inr own)
  | failed reason own => exact .inr (.inr own)

theorem Moves.verdict_cases {conf next : Conf} (step : Moves conf next) {j : Nat}
    (changed : next.world.verdict? j ≠ conf.world.verdict? j) :
    (∃ input strict, conf.issued? = some (j, .evaluate input strict) ∧
      conf.world.isIdle j = true) ∨ conf.issued? = none ∧ conf.active.head? = some j := by
  by_contra elsewhere
  rw [not_or] at elsewhere
  refine changed (World.verdict?_eq step.length_contexts (fun there => ?_))
  obtain ⟨c, present, alters⟩ := step.alters there
  rcases alters.verdict_cases with same | started | own
  · exact ⟨c, present, same⟩
  · exact absurd started elsewhere.1
  · exact absurd ⟨own.issued?_eq_none, own.head?_active⟩ elsewhere.2

/-- Of all calls only an evaluation that is admitted changes a verdict. -/
theorem World.call_verdict? {w : World} {id : Nat} {call : Call}
    (direct : w.admits id call = false) (j : Nat) :
    (w.call id call).1.verdict? j = w.verdict? j := by
  rw [World.call, perform_of_not_admits _ direct]
  refine World.verdict?_eq (perform_keeps refuseEvaluation_keeps w id call).length
    (fun there => ?_)
  obtain ⟨c, present, rfl | ⟨rfl, rfl⟩⟩ := perform_get?_cases there
  · exact ⟨_, present, rfl⟩
  · exact ⟨c, present, c.perform_verdict call⟩

/-- A call that leaves a context busy and open has found it so. -/
theorem Context.busy_of_perform (c : Context) {call : Call}
    (busy : (c.perform call).1.busy = true) (isOpen : (c.perform call).1.closed = false) :
    c.busy = true ∧ c.closed = false := by
  by_cases closing : call = .close
  · subst closing
    change c.close.1.busy = true at busy
    change c.close.1.closed = false at isOpen
    unfold Context.close at busy isOpen
    split at isOpen
    · rename_i shut
      cases isOpen.symm.trans shut
    · rename_i isOpen'
      split at isOpen
      · exact ⟨‹_›, Bool.eq_false_iff.mpr isOpen'⟩
      · cases isOpen
  · have record := c.perform_record closing
    rw [Context.record, Context.record, Record.mk.injEq] at record
    exact ⟨record.2.2.2.1 ▸ busy, record.2.2.2.2 ▸ isOpen⟩

/-- How the record of a context may be: one that evaluates has neither failed nor been halted, and
no context has done both. -/
structure Context.Consistent (c : Context) : Prop where
  underway : c.busy = true → c.closed = false → c.status = .ok ∧ c.halted = false
  apart : c.status ≠ .ok → c.halted = false

theorem Context.Consistent.alter {conf : Conf} {j : Nat} {c d : Context}
    (guarded : Guarded conf.world conf.active conf.history)
    (present : conf.world.get? j = some c) (alters : conf.Alters j c d) (sane : c.Consistent) :
    d.Consistent := by
  cases alters with
  | kept => exact sane
  | @called call issued direct =>
      have verdict := c.perform_verdict call
      rw [Context.verdict, Context.verdict, Verdict.mk.injEq] at verdict
      refine ⟨fun busy isOpen => ?_, fun failed => ?_⟩
      · rw [verdict.1, verdict.2.1]
        obtain ⟨busy', isOpen'⟩ := c.busy_of_perform busy isOpen
        exact sane.underway busy' isOpen'
      · rw [verdict.1] at failed
        rw [verdict.2.1]
        exact sane.apart failed
  | started issued idle => exact ⟨fun _ _ => ⟨rfl, rfl⟩, fun _ => rfl⟩
  | looked token own => exact ⟨sane.underway, sane.apart⟩
  | handled stack own => exact ⟨sane.underway, sane.apart⟩
  | released own => exact ⟨by rintro ⟨⟩, sane.apart⟩
  | halted own =>
      obtain ⟨busy, isOpen⟩ := guarded.of_proceeds own present
      refine ⟨by rintro ⟨⟩, fun failed => ?_⟩
      exact absurd (sane.underway busy isOpen).1 failed
  | failed reason own =>
      obtain ⟨busy, isOpen⟩ := guarded.of_proceeds own present
      exact ⟨by rintro ⟨⟩, fun _ => (sane.underway busy isOpen).2⟩

theorem Context.consistent_of_reach {options : List ContextOptions} {calls : List (Nat × Call)}
    {conf : Conf} (reached : Reach ⟨World.new options, [], calls, []⟩ conf) {j : Nat}
    {c : Context} (present : conf.world.get? j = some c) : c.Consistent :=
  forall_contexts_of_reach (P := Context.Consistent)
    (fun _ => ⟨by rintro ⟨⟩, fun _ => rfl⟩) Context.Consistent.alter reached present

/-- Whatever new contexts are asked to do, and whatever their callbacks do on whichever of them: an
evaluation that is admitted is answered, and ends in exactly one of the three ways; no context
remembers a failure together with a halt; and what a context remembers is changed by its own
evaluations alone, at their start and by their own moves, and by no other call. -/
theorem verdict_matches_reply {options : List ContextOptions} {calls : List (Nat × Call)}
    {conf : Conf} (reached : Reach ⟨World.new options, [], calls, []⟩ conf) :
    (∀ {id : Nat} {input : String} {strict : Bool},
      conf.issued? = some (id, .evaluate input strict) → conf.world.isIdle id = true →
        (∃ answers, Reach conf
          ((conf.extend answers).answered (conf.world.evaluate id input strict).1
            ⟨id, .evaluate input strict, (conf.world.evaluate id input strict).2⟩)) ∧
          ∃! ending : Ending, ending.Recorded conf.world id input strict) ∧
      (∀ {j : Nat} {c : Context}, conf.world.get? j = some c → c.status ≠ .ok →
        c.halted = false) ∧
      (∀ {id : Nat} {call : Call}, conf.world.admits id call = false →
        ∀ j, (conf.world.call id call).1.verdict? j = conf.world.verdict? j) ∧
      ∀ {next : Conf}, Moves conf next →
        ∀ {j : Nat}, next.world.verdict? j ≠ conf.world.verdict? j →
          (∃ input strict, conf.issued? = some (j, .evaluate input strict) ∧
            conf.world.isIdle j = true) ∨ conf.issued? = none ∧ conf.active.head? = some j := by
  refine ⟨fun {id input strict} issued idle => ?_, fun present => ?_, World.call_verdict?,
    Moves.verdict_cases⟩
  · obtain ⟨c, present, isOpen, free⟩ := World.isIdle_iff.mp idle
    have answered := reach_call issued
    rw [World.call, perform_evaluate _ present] at answered
    obtain ⟨ending, recorded⟩ := exists_ending present isOpen free input strict
    exact ⟨answered, ending, recorded, fun other also => also.unique recorded⟩
  · exact (Context.consistent_of_reach reached present).apart

/-- An operator that asks its own context for an evaluation and to be closed, makes another context
fail, and reports bytes that stand for no outcome and no reason. -/
def meddler : Callback :=
  .run [.on none (.evaluate "2" false), .on none .close, .on (some 1) (.evaluate "nope" false)]
    (.ofCodes 7 0)

/-- A context in which it has been registered. -/
def meddled : Context :=
  { Context.new { builtins := false } with
    operators := (Registry.empty .shadow).insert (.custom "boom" 0 meddler) }

theorem verdict_matches_reply_meddler :
    let w : World := ⟨[meddled, Context.new { builtins := false }], none, []⟩
    (∃ conf, Reach ⟨World.new [{ builtins := false }, { builtins := false }], [],
        [(0, .register "boom" 0 (some meddler)), (0, .evaluate "1 boom 3" false)], []⟩ conf ∧
      conf.world = w) ∧
      (w.evaluate 0 "1 boom 3" false).2 = .failed ⟨.invalidArgument, "boom", 1⟩ ∧
      Ending.failed.Recorded w 0 "1 boom 3" false := by
  intro w
  have answered : Reach ⟨World.new [{ builtins := false }, { builtins := false }], [],
      [(0, .register "boom" 0 (some meddler)), (0, .evaluate "1 boom 3" false)], []⟩ _ :=
    .single (.answer rfl rfl)
  have reached : Reach _ ⟨w, [], [(0, .evaluate "1 boom 3" false)],
      [⟨0, .register "boom" 0 (some meddler), .ok⟩]⟩ := answered
  have words : Token.tokenize "1 boom 3" = ["1", "boom", "3"] := by decide +kernel
  have found : meddled.operators.lookup? "boom" = some (.custom "boom" 0 meddler) :=
    Registry.lookup?_insert_empty .shadow (.custom "boom" 0 meddler)
  let c₁ : Context := (meddled.start.look "1").push (Token.literalValue "1")
  let w₁ : World := w.put 0 c₁
  have first : stepToken (evaluateAt 1) 0 false "1" (w.modify 0 Context.start) =
      (w₁, .proceed) := rfl
  have second : (stepToken (evaluateAt 1) 0 false "boom" w₁).2 = .fail .ok := by
    have there : (w₁.put 0 (c₁.look "boom")).get? 0 = some (c₁.look "boom") := rfl
    rw [@stepToken_of_unwatched w₁ 0 c₁ _ rfl rfl rfl]
    exact handleToken_outcome (callback?_of_lookup? there (by decide) found (Nat.zero_le _))
  have reply : (w.evaluate 0 "1 boom 3" false).2 = .failed ⟨.invalidArgument, "boom", 1⟩ := by
    rw [evaluate_eq_finish_modify (w := w) rfl rfl rfl, words]
    rw [show w.contexts.length - 1 = 1 from rfl, finish, runTokens_cons, first]
    dsimp only
    rw [runTokens_cons]
    generalize stepToken (evaluateAt 1) 0 false "boom" w₁ = step at second
    obtain ⟨w₂, outcome⟩ := step
    cases second
    rfl
  obtain ⟨ending, recorded, -⟩ := ((verdict_matches_reply reached).1 rfl rfl).2
  refine ⟨⟨⟨w, [], _, _⟩, reached, rfl⟩, reply, ?_⟩
  cases ending with
  | through => cases recorded.1.symm.trans reply
  | halted =>
      obtain ⟨position, token, ok, -⟩ := recorded
      cases ok.symm.trans reply
  | failed => exact recorded

end ReversePolish
