import ReversePolish.Proofs.Evaluation.CallStack
import ReversePolish.Proofs.Operator.Library

/-!
Contexts are independent.

Contexts meet in two places only: in the scripts of callbacks, which may call on any context, and in
the hook that they share. Where callbacks keep to the context they are called with (`isPrivate`) and
there is no shared hook, a call on a context is *confined* to it: what it leaves there, what its
callbacks note and what it answers are read off that context alone, and nothing else changes
(`Confined`). Each piece of an evaluation is confined if the evaluations inside it are, and the
pieces compose (`Confined.bind`).

`serveAll_filter` draws the conclusion for two runs: of all calls, and of those on one context.
-/

namespace ReversePolish

/-! ## Callbacks that keep to their context -/

mutual

/-- Whether a call on a context brings along only what keeps to it. The shared hook belongs to no
context, and may only be removed. -/
def Call.isPrivate (id : Nat) : Call → Bool
  | .register _ _ (some callback) => callback.isPrivate id
  | .hook shared (some hook) => !shared && hook.isPrivate id
  | _ => true

/-- Whether a step of a callback on a context is meant for that context. -/
def Step.isPrivate (id : Nat) : Step → Bool
  | .on target call => target.getD id == id && call.isPrivate id

def Callback.isPrivate (id : Nat) : Callback → Bool
  | .run body _ => privateSteps id body

def Hook.isPrivate (id : Nat) : Hook → Bool
  | .trace => true
  | .script _ body => privateSteps id body

def privateSteps (id : Nat) : List Step → Bool
  | [] => true
  | step :: rest => step.isPrivate id && privateSteps id rest

end

def Operator.isPrivate (id : Nat) : Operator → Bool
  | .builtin _ => true
  | .custom _ _ callback => callback.isPrivate id

def ContextOptions.isPrivate (id : Nat) (o : ContextOptions) : Bool :=
  o.hook.all (Hook.isPrivate id)

/-- The callbacks of a context keep to it. -/
structure Context.Private (id : Nat) (c : Context) : Prop where
  operators : ∀ op ∈ c.operators.entries, op.isPrivate id = true
  hook : ∀ hook, c.hook = some hook → hook.isPrivate id = true

namespace Context

variable {id : Nat} {c : Context}

theorem private_new {o : ContextOptions} (kept : o.isPrivate id = true) :
    (Context.new o).Private id where
  operators := by
    intro op member
    rw [Context.new, startingOperators, Registry.entries_insertAll] at member
    rcases List.mem_append.mp member with old | new
    · exact absurd old List.not_mem_nil
    · split at new
      · obtain ⟨b, -, rfl⟩ := List.mem_map.mp new
        rfl
      · exact absurd new List.not_mem_nil
  hook := by
    intro hook set
    rw [ContextOptions.isPrivate, show o.hook = some hook from set] at kept
    exact kept

theorem Private.close (own : c.Private id) : c.close.1.Private id := by
  unfold Context.close
  split
  · exact own
  · split
    · exact own
    · exact ⟨fun _ member => absurd member List.not_mem_nil, fun _ none => nomatch none⟩

theorem Private.register (own : c.Private id) {name : String} {arity : Int}
    {callback : Option Callback} (kept : (Call.register name arity callback).isPrivate id = true) :
    (c.perform (.register name arity callback)).1.Private id := by
  simp only [Context.perform]
  rcases c.operators.register_cases name arity callback with ⟨error, refused⟩ | ⟨body, rfl, taken⟩
  · rw [refused]
    exact own
  · rw [taken]
    refine ⟨fun op member => ?_, own.hook⟩
    rcases List.mem_append.mp member with old | new
    · exact own.operators op old
    · rw [List.mem_singleton.mp new]
      exact kept

theorem Private.perform (own : c.Private id) {call : Call} (kept : call.isPrivate id = true) :
    (c.perform call).1.Private id := by
  cases call with
  | pop =>
      simp only [Context.perform]
      split <;> exact ⟨own.operators, own.hook⟩
  | peek i =>
      simp only [Context.perform]
      split <;> exact own
  | store name =>
      simp only [Context.perform]
      split <;> exact ⟨own.operators, own.hook⟩
  | register name arity callback => exact own.register kept
  | clearOperators => exact ⟨fun _ member => absurd member List.not_mem_nil, own.hook⟩
  | hook shared hook =>
      cases shared with
      | true => exact own
      | false =>
          refine ⟨own.operators, fun h set => ?_⟩
          rw [show hook = some h from set] at kept
          exact kept
  | close => exact own.close
  | _ => exact ⟨own.operators, own.hook⟩

end Context

/-! ## Pieces of a run that are confined to a context -/

/-- The world with another context at one place, and with further notes. -/
def World.after (w : World) (id : Nat) (c : Context) (notes : List Event) : World :=
  { w.put id c with journal := notes ++ w.journal }

/-- A piece of a run that starts where a context is `c` is confined to it: whatever else there is,
it leaves the same context, whose callbacks keep to it, adds the same notes and gives the same
answer, and changes nothing else. -/
def Confined {α : Type} (id : Nat) (c : Context) (piece : World → World × α) : Prop :=
  ∃ d notes answer, d.Private id ∧
    ∀ w, w.get? id = some c → w.sharedHook = none → piece w = (w.after id d notes, answer)

/-- Evaluations of private contexts are confined. -/
def Evaluator.Confined (evaluate : Evaluator) (id : Nat) : Prop :=
  ∀ ⦃c : Context⦄, c.Private id → ∀ (input : String) (strict : Bool),
    ReversePolish.Confined id c (fun w => evaluate w id input strict)

namespace World

variable {w : World} {id : Nat} {c d : Context} {notes : List Event}

theorem get?_after (present : w.get? id = some c) : (w.after id d notes).get? id = some d :=
  get?_put_self present

theorem after_after (w : World) (id : Nat) (c d : Context) (notes more : List Event) :
    (w.after id c notes).after id d more = w.after id d (more ++ notes) := by
  unfold after put
  rw [List.set_set, List.append_assoc]

theorem note_eq_after (present : w.get? id = some c) (e : Event) : w.note e = w.after id c [e] := by
  unfold after
  rw [put_get? present]
  rfl

end World

namespace Confined

variable {α β : Type} {id : Nat} {c d : Context} {piece : World → World × α}

theorem congr {other : World → World × α} (confined : Confined id c other)
    (same : ∀ w, w.get? id = some c → w.sharedHook = none → piece w = other w) :
    Confined id c piece := by
  obtain ⟨d, notes, answer, own, run⟩ := confined
  refine ⟨d, notes, answer, own, fun w present unshared => ?_⟩
  rw [same w present unshared, run w present unshared]

/-- One piece after another that may depend on its answer. -/
theorem bind {next : α → World → World × β} (first : Confined id c piece)
    (second : ∀ (d : Context) (answer : α), d.Private id → Confined id d (next answer)) :
    Confined id c (fun w => next (piece w).2 (piece w).1) := by
  obtain ⟨d, notes, answer, own, run⟩ := first
  obtain ⟨e, more, result, own', run'⟩ := second d answer own
  refine ⟨e, more ++ notes, result, own', fun w present unshared => ?_⟩
  dsimp only
  rw [run w present unshared, run' _ (World.get?_after present) unshared, World.after_after]

theorem put (own : d.Private id) (answer : α) : Confined id c (fun w => (w.put id d, answer)) :=
  ⟨d, [], answer, own, fun _ _ _ => rfl⟩

theorem same (own : c.Private id) (answer : α) : Confined id c (fun w => (w, answer)) :=
  (put own answer).congr (fun w present _ => by rw [World.put_get? present])

theorem note (own : c.Private id) (e : Event) (answer : α) :
    Confined id c (fun w => (w.note e, answer)) :=
  ⟨c, [e], answer, own, fun _ present _ => congrArg (·, answer) (World.note_eq_after present e)⟩

theorem modify {f : Context → Context} (own : (f c).Private id) (answer : α) :
    Confined id c (fun w => (w.modify id f, answer)) :=
  (put own answer).congr (fun w present _ => by rw [World.modify_eq_put present])

end Confined

/-- The rest of an evaluation, by the outcome of the token before it. -/
def afterToken (evaluate : Evaluator) (id : Nat) (strict : Bool) (position : Nat) (token : String)
    (rest : List String) : Outcome → World → World × Reply
  | .proceed, w => runTokens evaluate id strict (position + 1) rest w
  | .halt, w => (w.modify id (fun c => { c with halted := true }), .ok)
  | .fail reason, w =>
    (w.modify id (fun c => { c with status := failureReason reason }),
      .failed ⟨failureReason reason, token, position⟩)

theorem runTokens_cons_eq (evaluate : Evaluator) (id : Nat) (strict : Bool) (position : Nat)
    (token : String) (rest : List String) (w : World) :
    runTokens evaluate id strict position (token :: rest) w =
      afterToken evaluate id strict position token rest (stepToken evaluate id strict token w).2
        (stepToken evaluate id strict token w).1 := by
  rw [runTokens_cons]
  rcases stepToken evaluate id strict token w with ⟨w₁, outcome⟩
  cases outcome <;> rfl

section Parts

variable {evaluate : Evaluator} {id : Nat} (inner : evaluate.Confined id) {c : Context}
include inner

theorem perform_confined (own : c.Private id) {call : Call} (kept : call.isPrivate id = true) :
    Confined id c (fun w => perform evaluate w id call) := by
  have alone (other : ∀ w, w.get? id = some c → w.sharedHook = none →
      perform evaluate w id call = (w.put id (c.perform call).1, (c.perform call).2)) :
      Confined id c (fun w => perform evaluate w id call) :=
    (Confined.put (own.perform kept) _).congr other
  cases call with
  | evaluate input strict =>
      refine (inner own input strict).congr (fun w present _ => ?_)
      unfold perform
      rw [present]
  | hook shared hook =>
      cases shared with
      | false => exact alone (fun w present _ => by unfold perform; rw [present])
      | true =>
          cases hook with
          | some hook => cases kept
          | none =>
              -- There is no shared hook that could be removed.
              refine (Confined.same own Reply.ok).congr (fun w present unshared => ?_)
              unfold perform
              rw [present, ← unshared]
  | _ => exact alone (fun w present _ => by unfold perform; rw [present])

theorem runScript_confined (own : c.Private id) {body : List Step}
    (kept : privateSteps id body = true) :
    Confined id c (fun w => (runScript evaluate id body w, ())) := by
  induction body generalizing c with
  | nil => exact .same own ()
  | cons step body ih =>
      obtain ⟨target, call⟩ := step
      rw [privateSteps, Step.isPrivate, Bool.and_eq_true, Bool.and_eq_true, beq_iff_eq] at kept
      obtain ⟨⟨here, kept⟩, rest⟩ := kept
      have first := (perform_confined inner own kept).bind (fun d reply own₁ =>
        Confined.note own₁ (.performed call reply) ())
      refine (first.bind (fun d _ own₁ => ih own₁ rest)).congr (fun w _ _ => ?_)
      simp only [runScript, List.foldl_cons, here]

theorem callHook_confined (own : c.Private id) (token : String) :
    Confined id c (fun w => (callHook evaluate id token w, ())) := by
  cases watched : c.hook with
  | none =>
      refine (Confined.same own ()).congr (fun w present unshared => ?_)
      simp only [callHook, present, watched, unshared]
      rfl
  | some hook =>
      have kept := own.hook hook watched
      cases hook with
      | trace =>
          refine (Confined.note own (.traced token c.stack.length) ()).congr
            (fun w present _ => ?_)
          simp only [callHook, present, watched]
          rfl
      | script label body =>
          have noted := Confined.note own (.observed label token c.stack.length) ()
          refine (noted.bind (fun d _ own₁ => runScript_confined inner own₁ kept)).congr
            (fun w present _ => ?_)
          simp only [callHook, present, watched]
          rfl

theorem callOperator_confined (own : c.Private id) {op : Operator} (kept : op.isPrivate id = true) :
    Confined id c (callOperator evaluate id c op) := by
  cases op with
  | builtin b =>
      cases run : b.run? c.settings c.stack with
      | some effect =>
          have left : Context.Private id { c with stack := effect.stack } :=
            ⟨own.operators, own.hook⟩
          exact (Confined.put left effect.outcome).congr (fun w _ _ => callOperator_builtin run)
      | none =>
          refine (Confined.note own (.underflow b) (Outcome.fail .invalidArgument)).congr
            (fun w _ _ => ?_)
          simp only [callOperator, run]
  | custom name arity callback =>
      cases callback with
      | run body outcome =>
          exact (runScript_confined inner own kept).bind (fun d _ own₁ => .same own₁ outcome)

theorem handleToken_confined (own : c.Private id) (strict : Bool) (token : String) :
    Confined id c (handleToken evaluate id strict token) := by
  have pushed (v : Value) : Confined id c (fun w => (w.put id (c.push v), Outcome.proceed)) :=
    .put (d := c.push v) ⟨own.operators, own.hook⟩ _
  have failed (reason : Status) : Confined id c (fun w => (w, Outcome.fail reason)) :=
    .same own _
  by_cases literal : Token.isLiteral token = true
  · refine (pushed (Token.literalValue token)).congr (fun w present _ => ?_)
    simp only [handleToken, present, if_pos literal]
  · cases found : c.operators.lookup? token with
    | some op =>
        by_cases short : c.stack.length < op.arity
        · refine (failed .argumentCount).congr (fun w present _ => ?_)
          simp only [handleToken, present, if_neg literal, found, if_pos short]
        · have kept := own.operators op (Registry.mem_of_lookup? found).1
          refine (callOperator_confined inner own kept).congr (fun w present _ => ?_)
          simp only [handleToken, present, if_neg literal, found, if_neg short]
    | none =>
        cases named : Token.variableName? token with
        | none =>
            refine (failed .unknownToken).congr (fun w present _ => ?_)
            simp only [handleToken, present, if_neg literal, found, named]
        | some name =>
            cases value : c.vars.get? name with
            | some v =>
                refine (pushed v).congr (fun w present _ => ?_)
                simp only [handleToken, present, if_neg literal, found, named, value]
            | none =>
                cases strict with
                | true =>
                    refine (failed .unknownToken).congr (fun w present _ => ?_)
                    simp only [handleToken, present, if_neg literal, found, named, value, if_true]
                | false =>
                    refine (pushed 0).congr (fun w present _ => ?_)
                    simp only [handleToken, present, if_neg literal, found, named, value,
                      Bool.false_eq_true, if_false]

theorem stepToken_confined (own : c.Private id) (strict : Bool) (token : String) :
    Confined id c (stepToken evaluate id strict token) := by
  have looked := Confined.modify (f := Context.look token) ⟨own.operators, own.hook⟩ ()
  have watched := looked.bind (fun d _ own₁ => callHook_confined inner own₁ token)
  exact watched.bind (fun d _ own₁ => handleToken_confined inner own₁ strict token)

theorem runTokens_confined (own : c.Private id) (strict : Bool) (position : Nat)
    (tokens : List String) : Confined id c (runTokens evaluate id strict position tokens) := by
  induction tokens generalizing c position with
  | nil => exact .same own _
  | cons token rest ih =>
      have goesOn (d : Context) (outcome : Outcome) (own₁ : d.Private id) :
          Confined id d (afterToken evaluate id strict position token rest outcome) := by
        cases outcome with
        | proceed => exact ih own₁ (position + 1)
        | halt => exact .modify ⟨own₁.operators, own₁.hook⟩ _
        | fail reason => exact .modify ⟨own₁.operators, own₁.hook⟩ _
      exact ((stepToken_confined inner own strict token).bind goesOn).congr
        (fun w _ _ => runTokens_cons_eq ..)

theorem evaluateWith_confined : (evaluateWith evaluate).Confined id := by
  intro c own input strict
  unfold evaluateWith
  by_cases closed : c.closed = true
  · exact (Confined.same own Reply.closed).congr (fun w present _ => by
      simp only [present, if_pos closed])
  · by_cases busy : c.busy = true
    · exact (Confined.same own Reply.busy).congr (fun w present _ => by
        simp only [present, if_neg closed, if_pos busy])
    · have started : Context.Private id c.start := ⟨own.operators, own.hook⟩
      have run := (Confined.put (c := c) started ()).bind (fun d _ own₁ =>
        runTokens_confined inner own₁ strict 0 (Token.tokenize input))
      have released := run.bind (fun d reply own₁ =>
        Confined.modify (f := Context.release) ⟨own₁.operators, own₁.hook⟩ reply)
      exact released.congr (fun w present _ => by
        simp only [present, if_neg closed, if_neg busy])

end Parts

theorem refuseEvaluation_confined (id : Nat) : Evaluator.Confined refuseEvaluation id := by
  intro c own input strict
  unfold refuseEvaluation
  by_cases closed : c.closed = true
  · exact (Confined.same own Reply.closed).congr (fun w present _ => by
      simp only [present, if_pos closed])
  · exact (Confined.same own Reply.busy).congr (fun w present _ => by
      simp only [present, if_neg closed])

/-- Evaluations of a private context are confined to it. -/
theorem evaluateAt_confined (id n : Nat) : (evaluateAt n).Confined id := by
  induction n with
  | zero => exact refuseEvaluation_confined id
  | succ n ih => exact evaluateWith_confined ih

/-! ## Calls on many contexts -/

/-- What is seen of a call: its answer, and what callbacks noted meanwhile. -/
structure Report extends Answer where
  notes : List Event

namespace World

/-- Perform a call and take the journal. -/
def serve (w : World) (id : Nat) (call : Call) : World × Report :=
  let (w₁, reply) := w.call id call
  let (notes, w₂) := w₁.takeJournal
  (w₂, ⟨⟨id, call, reply⟩, notes⟩)

/-- Perform calls one after the other. -/
def serveAll : World → List (Nat × Call) → World × List Report
  | w, [] => (w, [])
  | w, (id, call) :: rest =>
    let (w₁, report) := w.serve id call
    let (w₂, reports) := w₁.serveAll rest
    (w₂, report :: reports)

/-- Between calls, of contexts that share nothing: the journal is taken, and callbacks keep to their
contexts. -/
structure Separate (w : World) : Prop where
  unshared : w.sharedHook = none
  taken : w.journal = []
  own : ∀ {id : Nat} {c : Context}, w.get? id = some c → c.Private id

variable {w v : World} {id : Nat} {c d : Context} {call : Call}

theorem Separate.put (separate : w.Separate) (present : w.get? id = some c) (own : d.Private id) :
    (w.put id d).Separate where
  unshared := separate.unshared
  taken := separate.taken
  own := by
    intro j e there
    by_cases same : j = id
    · subst same
      rw [get?_put_self present, Option.some.injEq] at there
      exact there ▸ own
    · rw [get?_put_ne same] at there
      exact separate.own there

theorem serve_of_absent (absent : w.get? id = none) (taken : w.journal = []) (call : Call) :
    w.serve id call = (w, ⟨⟨id, call, .noContext⟩, []⟩) := by
  obtain ⟨contexts, sharedHook, journal⟩ := w
  cases taken
  unfold serve World.call perform
  rw [absent]
  rfl

/-- What a call leaves of its context, and what is seen of it, is the same in all worlds of a size
in which the context is the same. -/
theorem serve_confined (own : c.Private id) (kept : call.isPrivate id = true) (size : Nat) :
    ∃ d report, d.Private id ∧
      ∀ w : World, w.Separate → w.contexts.length = size → w.get? id = some c →
        w.serve id call = (w.put id d, report) := by
  obtain ⟨d, notes, reply, own₁, run⟩ :=
    perform_confined (evaluateAt_confined id size) own kept
  refine ⟨d, ⟨⟨id, call, reply⟩, notes.reverse⟩, own₁, fun w separate length present => ?_⟩
  have called : w.call id call = (w.after id d notes, reply) := by
    unfold World.call
    rw [length]
    exact run w present separate.unshared
  unfold serve
  rw [called]
  simp only [takeJournal, after, separate.taken, List.append_nil]
  rw [← separate.taken]
  rfl

/-- A call leaves the other contexts as they are. -/
theorem Separate.serve (separate : w.Separate) (kept : call.isPrivate id = true) :
    (w.serve id call).1.Separate ∧
      (w.serve id call).1.contexts.length = w.contexts.length ∧
      ∀ {j : Nat}, j ≠ id → (w.serve id call).1.get? j = w.get? j := by
  cases present : w.get? id with
  | none =>
      rw [serve_of_absent present separate.taken]
      exact ⟨separate, rfl, fun _ => rfl⟩
  | some c =>
      obtain ⟨d, report, own, run⟩ :=
        serve_confined (separate.own present) kept w.contexts.length
      rw [run w separate rfl present]
      exact ⟨separate.put present own, length_put .., get?_put_ne⟩

/-- Worlds between calls that have one context in common. -/
structure Agree (id : Nat) (w v : World) : Prop where
  left : w.Separate
  right : v.Separate
  length : v.contexts.length = w.contexts.length
  same : v.get? id = w.get? id

/-- A call on another context, in one of the worlds. -/
theorem Agree.serve_other (agree : Agree id w v) {j : Nat} (other : j ≠ id)
    (kept : call.isPrivate j = true) : Agree id (w.serve j call).1 v := by
  obtain ⟨separate, length, others⟩ := agree.left.serve kept
  exact ⟨separate, agree.right, agree.length.trans length.symm,
    agree.same.trans (others other.symm).symm⟩

/-- A call on the common context, in both worlds. -/
theorem Agree.serve (agree : Agree id w v) (kept : call.isPrivate id = true) :
    (v.serve id call).2 = (w.serve id call).2 ∧
      Agree id (w.serve id call).1 (v.serve id call).1 := by
  cases present : w.get? id with
  | none =>
      rw [serve_of_absent present agree.left.taken,
        serve_of_absent (agree.same.trans present) agree.right.taken]
      exact ⟨rfl, agree⟩
  | some c =>
      have present' := agree.same.trans present
      obtain ⟨d, report, own, run⟩ :=
        serve_confined (agree.left.own present) kept w.contexts.length
      rw [run w agree.left rfl present, run v agree.right agree.length present']
      refine ⟨rfl, agree.left.put present own, agree.right.put present' own, ?_, ?_⟩
      · rw [length_put, length_put, agree.length]
      · rw [get?_put_self present, get?_put_self present']

theorem Agree.serveAll {calls : List (Nat × Call)} (agree : Agree id w v)
    (kept : ∀ entry ∈ calls, entry.2.isPrivate entry.1 = true) :
    (v.serveAll (calls.filter (·.1 = id))).2 = (w.serveAll calls).2.filter (·.id = id) ∧
      Agree id (w.serveAll calls).1 (v.serveAll (calls.filter (·.1 = id))).1 := by
  induction calls generalizing w v with
  | nil => exact ⟨rfl, agree⟩
  | cons entry rest ih =>
      obtain ⟨j, call⟩ := entry
      obtain ⟨first, others⟩ := List.forall_mem_cons.mp kept
      have reports : (w.serveAll ((j, call) :: rest)).2 =
          (w.serve j call).2 :: ((w.serve j call).1.serveAll rest).2 := rfl
      have named : (w.serve j call).2.id = j := rfl
      -- A call on the context is made in both runs, and any other in the run of all calls only.
      by_cases own : j = id
      · subst own
        obtain ⟨report, agree₁⟩ := agree.serve first
        obtain ⟨sames, agree₂⟩ := ih agree₁ others
        rw [List.filter_cons_of_pos (by simp), reports, List.filter_cons_of_pos (by simp [named])]
        refine ⟨?_, agree₂⟩
        rw [← report, ← sames]
        rfl
      · rw [List.filter_cons_of_neg (by simpa using own), reports,
          List.filter_cons_of_neg (by simpa [named] using own)]
        exact ih (agree.serve_other own first) others

theorem separate_new {options : List ContextOptions}
    (hooks : ∀ {j : Nat} {o : ContextOptions}, options[j]? = some o → o.isPrivate j = true) :
    (World.new options).Separate where
  unshared := rfl
  taken := rfl
  own := by
    intro j c present
    rw [World.get?, World.new, List.getElem?_map] at present
    obtain ⟨o, there, rfl⟩ := Option.map_eq_some_iff.mp present
    exact Context.private_new (hooks there)

/-- Where callbacks keep to their contexts and no hook is shared, calls on other contexts do not
matter: what is seen of the calls on a context, and the context in the end, are as if only these
calls had been made. -/
theorem serveAll_filter {options : List ContextOptions} {calls : List (Nat × Call)}
    (hooks : ∀ {j : Nat} {o : ContextOptions}, options[j]? = some o → o.isPrivate j = true)
    (kept : ∀ entry ∈ calls, entry.2.isPrivate entry.1 = true) (id : Nat) :
    ((World.new options).serveAll (calls.filter (·.1 = id))).2 =
        ((World.new options).serveAll calls).2.filter (·.id = id) ∧
      ((World.new options).serveAll (calls.filter (·.1 = id))).1.get? id =
        ((World.new options).serveAll calls).1.get? id := by
  have separate := separate_new hooks
  obtain ⟨reports, agree⟩ := Agree.serveAll ⟨separate, separate, rfl, rfl⟩ kept
  exact ⟨reports, agree.same⟩

/-- Contexts with hooks of their own, the second of which registers an operator. -/
def neighbours : List ContextOptions :=
  [{ hook := some (.script "left" [.on none (.push 1)]) },
    { hook := some (.script "right" [.on (some 1)
        (.register "x" 0 (some (.run [.on none .clearStack] .halt)))]) }]

/-- Calls on both of them, in turns. -/
def turns : List (Nat × Call) :=
  [(0, .evaluate "2 +" false), (1, .evaluate "3 x" true), (0, .hook false none), (1, .close),
    (0, .register "x" 0 (some (.run [.on (some 0) (.evaluate "4" false)] .proceed))),
    (1, .evaluate "5" false), (0, .evaluate "x" false)]

theorem serveAll_filter_turns :
    (∀ {j : Nat} {o : ContextOptions}, neighbours[j]? = some o → o.isPrivate j = true) ∧
      (∀ entry ∈ turns, entry.2.isPrivate entry.1 = true) ∧
      ((World.new neighbours).serveAll
          [(1, .evaluate "3 x" true), (1, .close), (1, .evaluate "5" false)]).2 =
        ((World.new neighbours).serveAll turns).2.filter (·.id = 1) ∧
      ((World.new neighbours).serveAll
          [(1, .evaluate "3 x" true), (1, .close), (1, .evaluate "5" false)]).1.get? 1 =
        ((World.new neighbours).serveAll turns).1.get? 1 := by
  have hooks {j : Nat} {o : ContextOptions} (there : neighbours[j]? = some o) :
      o.isPrivate j = true := by
    match j with
    | 0 => cases there; rfl
    | 1 => cases there; rfl
    | j + 2 => cases there
  have kept : ∀ entry ∈ turns, entry.2.isPrivate entry.1 = true := by decide
  exact ⟨hooks, kept, serveAll_filter hooks kept 1⟩

end World

end ReversePolish
