import ReversePolish.Proofs.Evaluation.Observation
import ReversePolish.Session

/-!
What a session writes when it evaluates.

An `Evaluation` is said by the world alone: the tokens that it looks at, and the stack that it
leaves or the words for its failure. What a session writes about it is a function of that and of
whether the session traces. The journal of the session, out of which its traces are taken after each
evaluation, does not matter, and neither does the hook that makes them; so one world tells what
every session writes whose world is the same but for these (`World.Follows`).
-/

namespace ReversePolish

namespace Output

@[simp] theorem mk_append_mk (a b c d : String) :
    (⟨a, b⟩ : Output) ++ ⟨c, d⟩ = ⟨a ++ c, b ++ d⟩ := rfl

@[simp] theorem out_append (a b : Output) : (a ++ b).out = a.out ++ b.out := rfl

@[simp] theorem err_append (a b : Output) : (a ++ b).err = a.err ++ b.err := rfl

@[simp] theorem append_empty (o : Output) : o ++ ⟨"", ""⟩ = o := by
  rcases o with ⟨out, err⟩
  simp

@[simp] theorem empty_append (o : Output) : ⟨"", ""⟩ ++ o = o := by
  rcases o with ⟨out, err⟩
  simp

theorem err_append_out (a b : String) : (⟨"", a⟩ : Output) ++ ⟨b, ""⟩ = ⟨b, a⟩ := by
  simp

theorem err_append_err (a b : String) : (⟨"", a⟩ : Output) ++ ⟨"", b⟩ = ⟨"", a ++ b⟩ := by
  simp

theorem append_assoc (a b c : Output) : a ++ b ++ c = a ++ (b ++ c) := by
  rcases a with ⟨out, err⟩
  rcases b with ⟨out', err'⟩
  rcases c with ⟨out'', err''⟩
  simp [String.append_assoc]

end Output

/-! ## Evaluations -/

/-- The tokens that the evaluation of an expression looks at, each with the size of the stack that it
finds. -/
def World.looked (w : World) (id : Nat) (input : String) (strict : Bool) : List (String × Nat) :=
  if w.isIdle id then
    (lookedAt (evaluateAt (w.contexts.length - 1)) id strict (Token.tokenize input)
      (w.modify id Context.start)).map (fun seen => (seen.1, seen.2.length))
  else []

/-- A line for each token that was looked at. -/
def Palette.traceLines (p : Palette) (looked : List (String × Nat)) : String :=
  String.join (looked.map (fun seen => p.trace seen.1 seen.2))

/-- An evaluation as it is told. -/
structure Evaluation where
  /-- The tokens that it looked at, each with the size of the stack. -/
  looked : List (String × Nat)
  /-- The stack that it left, top first, or the words for its failure. -/
  result : Except String (List Value)

namespace Evaluation

def succeeded (e : Evaluation) : Bool :=
  e.result.isOk

/-- The listing of the stack, if the evaluation succeeded. -/
def listing (e : Evaluation) (p : Palette) (numbered : Bool) : String :=
  match e.result with
  | .ok stack => p.stack numbered stack
  | .error _ => ""

/-- The message, if the evaluation failed. -/
def message (e : Evaluation) (p : Palette) : String :=
  match e.result with
  | .ok _ => ""
  | .error message => p.failure message

/-- What is written about an evaluation. -/
def output (e : Evaluation) (p : Palette) (traced numbered : Bool) : Output :=
  ⟨e.listing p numbered, (if traced then p.traceLines e.looked else "") ++ e.message p⟩

/-- What is written about evaluations, one after the other. -/
def outputs (es : List Evaluation) (p : Palette) (traced : Bool) : Output where
  out := String.join (es.map (·.listing p false))
  err := String.join (es.map (fun e => (if traced then p.traceLines e.looked else "") ++ e.message p))

theorem outputs_nil (p : Palette) (traced : Bool) : outputs [] p traced = ⟨"", ""⟩ := rfl

theorem outputs_cons (e : Evaluation) (es : List Evaluation) (p : Palette) (traced : Bool) :
    outputs (e :: es) p traced = e.output p traced false ++ outputs es p traced := by
  simp [outputs, output]

end Evaluation

namespace World

/-- The evaluation of an expression. -/
def evaluation (w : World) (id : Nat) (input : String) (strict : Bool) : Evaluation where
  looked := w.looked id input strict
  result :=
    match (w.evaluate id input strict).2.error? with
    | some message => .error message
    | none => .ok ((w.evaluate id input strict).1.stackOf id)

/-- The evaluations of expressions one after the other, each in the world that those before it
leave. -/
def evaluations (w : World) (id : Nat) (strict : Bool) : List String → List Evaluation
  | [] => []
  | x :: xs => w.evaluation id x strict :: (w.evaluate id x strict).1.evaluations id strict xs

end World

/-! ## Contexts that stay idle -/

/-- A run leaves its context open. -/
theorem runTokens_open (n : Nat) {w : World} {id : Nat} {c : Context} {last : String}
    (present : w.get? id = some c) (underway : c.record = .underway last) (strict : Bool)
    (position : Nat) (tokens : List String) :
    ∃ d, (runTokens (evaluateAt n) id strict position tokens w).1.get? id = some d ∧
      d.closed = false := by
  induction tokens generalizing w c last position with
  | nil => exact ⟨c, present, congrArg Record.closed underway⟩
  | cons token rest ih =>
      rcases @stepToken_underway _ id strict (evaluateAt_keeps n) _ _ _ present underway token with
        ⟨c₁, present₁, underway₁⟩
      rw [runTokens_cons]
      generalize stepToken (evaluateAt n) id strict token w = step at present₁
      rcases step with ⟨w₁, outcome⟩
      have isOpen : c₁.closed = false := congrArg Record.closed underway₁
      have ended (f : Context → Context) (closed : (f c₁).closed = c₁.closed) :
          ∃ d, (w₁.modify id f).get? id = some d ∧ d.closed = false :=
        ⟨_, World.get?_modify_self present₁ f, closed.trans isOpen⟩
      cases outcome with
      | proceed => exact ih present₁ underway₁ (position + 1)
      | halt => exact ended _ rfl
      | fail reason => exact ended _ rfl

/-- A context that has evaluated takes another evaluation. -/
theorem World.isIdle_evaluate {w : World} {id : Nat} (idle : w.isIdle id = true) (input : String)
    (strict : Bool) : (w.evaluate id input strict).1.isIdle id = true := by
  rcases World.isIdle_iff.mp idle with ⟨c, present, isOpen, free⟩
  have started := World.get?_modify_self present Context.start
  rw [evaluate_eq_finish_modify present isOpen free, finish]
  rcases runTokens_open (w.contexts.length - 1) started (c.record_start isOpen) strict 0
    (Token.tokenize input) with ⟨d, there, isOpen₁⟩
  exact World.isIdle_iff.mpr ⟨_, World.get?_modify_self there _, isOpen₁, rfl⟩

/-! ## Traces in the journal -/

namespace World

/-- The traces that are taken out of a journal are the calls of hooks without a label. -/
theorem takeTraces_fst (w : World) :
    w.takeTraces.1 = w.seen.filterMap (fun seen => if seen.1.isNone then some seen.2 else none) := by
  rw [seen, List.filterMap_filterMap]
  refine List.filterMap_congr (fun e _ => ?_)
  cases e <;> rfl

theorem seen_takeTraces (w : World) :
    w.takeTraces.2.seen = w.seen.filter (fun seen => seen.1.isSome) := by
  show (w.journal.filter _).reverse.filterMap Event.seen? = _
  rw [seen, ← List.filter_reverse, List.filterMap_filter, List.filter_filterMap]
  refine List.filterMap_congr (fun e _ => ?_)
  cases e <;> rfl

/-- A journal that tells of traces alone is emptied of them. -/
theorem takeTraces_of_seen {w : World} {looked : List (String × Nat)}
    (told : w.seen = looked.map (fun seen => (none, seen))) :
    w.takeTraces.1 = looked ∧ w.takeTraces.2.seen = [] := by
  rw [takeTraces_fst, seen_takeTraces, told]
  constructor
  · simp [List.filterMap_map]
  · simp [List.filter_map, Function.comp_def]

end World

/-! ## Worlds that differ in tracing -/

/-- The hook that traces, or none. -/
def tracer (traced : Bool) : Option Hook :=
  if traced then some .trace else none

theorem tracer_observes (traced : Bool) (id : Nat) :
    (tracer traced).all (Hook.observes id) = true := by
  cases traced <;> rfl

theorem tracer_exchangeable (traced traced' : Bool) (id : Nat) :
    Exchangeable id (tracer traced) (tracer traced') :=
  .inr ⟨tracer_observes traced id, tracer_observes traced' id⟩

/-- A world with a single context, which is idle, next to another world that is the same but for its
journal and for tracing. Nothing is traced that was not yet shown. -/
structure World.Follows (traced traced' : Bool) (w v : World) : Prop where
  mirror : Mirror (fun _ => tracer traced) (fun _ => tracer traced') w v
  single : w.contexts.length = 1
  idle : w.isIdle Session.home = true
  quiet : w.seen = []

/-- The operators that a context starts with are builtins. -/
theorem Context.leavesHooks_startingOperators (o : ContextOptions) :
    ∀ op ∈ (startingOperators o).entries, op.leavesHooks = true := by
  intro op member
  rw [startingOperators, Registry.entries_insertAll] at member
  rcases List.mem_append.mp member with old | new
  · cases old
  · split at new
    · rcases List.mem_map.mp new with ⟨b, -, rfl⟩
      rfl
    · cases new

/-- New worlds that differ in tracing. -/
theorem World.follows_new (o : ContextOptions) (vars : Variables) (traced traced' : Bool) :
    World.Follows traced traced'
      ⟨[{ Context.new { o with hook := tracer traced } with vars := vars }], none, []⟩
      ⟨[{ Context.new { o with hook := tracer traced' } with vars := vars }], none, []⟩ where
  mirror := by
    refine ⟨rfl, ?_⟩
    intro j c d there there'
    cases j with
    | succ j => cases there
    | zero =>
        cases there
        cases there'
        refine ⟨rfl, fun op member => ?_, fun _ => ?_⟩
        · exact Context.leavesHooks_startingOperators _ op member
        · cases traced <;> cases traced' <;> exact ⟨rfl, rfl⟩
  single := rfl
  idle := rfl
  quiet := rfl

/-- The world of a session after an evaluation: what was traced has been shown. -/
def World.settle (w : World) (input : String) (strict : Bool) : World :=
  (w.evaluate Session.home input strict).1.takeTraces.2

section Mirrored

variable {left right : Nat → Option Hook} {w v : World} {id : Nat}

theorem Mirror.any_get? (mirror : Mirror left right w v) {p : Context → Bool}
    (unhooked : ∀ c hook, p { c with hook := hook } = p c) :
    (v.get? id).any p = (w.get? id).any p := by
  cases present : w.get? id with
  | none => rw [mirror.get?_none present]
  | some c =>
      rcases mirror.get? present with ⟨hook, present', -⟩
      rw [present']
      exact unhooked c hook

theorem Mirror.isIdle (mirror : Mirror left right w v) : v.isIdle id = w.isIdle id :=
  mirror.any_get? (fun _ _ => rfl)

theorem Mirror.stackOf (mirror : Mirror left right w v) : v.stackOf id = w.stackOf id := by
  unfold World.stackOf
  cases present : w.get? id with
  | none => rw [mirror.get?_none present]
  | some c =>
      rcases mirror.get? present with ⟨hook, present', -⟩
      rw [present']
      rfl

end Mirrored

namespace World.Follows

variable {traced traced' : Bool} {w v : World} (follows : w.Follows traced traced' v)
include follows

theorem looked_eq (input : String) (strict : Bool) :
    v.looked Session.home input strict =
      (lookedAt (evaluateAt 0) Session.home strict (Token.tokenize input)
        (v.modify Session.home Context.start)).map (fun seen => (seen.1, seen.2.length)) := by
  rw [World.looked, follows.mirror.isIdle, if_pos follows.idle, follows.mirror.length,
    follows.single]

/-- The calls of hooks are the tokens that are looked at, if they are traced. -/
theorem map_hookCalls (input : String) (strict : Bool) :
    (w.hookCalls Session.home input strict).map Sighting.seen =
      (if traced then v.looked Session.home input strict else []).map
        (fun seen => (none, seen)) := by
  rcases World.isIdle_iff.mp follows.idle with ⟨c, present, isOpen, -⟩
  have started := World.get?_modify_self present Context.start
  have mirror : Mirror _ _ (w.modify Session.home Context.start)
      (v.modify Session.home Context.start) :=
    follows.mirror.modify (fun _ _ => rfl) (fun _ => rfl) (fun _ => rfl)
  rw [World.hookCalls, if_pos follows.idle, follows.single,
    hookCalls_eq (fun j => tracer_exchangeable traced traced' j) _ mirror started
      (c.record_start isOpen), follows.looked_eq]
  cases traced with
  | false => simp [tracer]
  | true =>
      rw [if_pos rfl, List.map_map, List.map_flatMap, List.map_eq_flatMap]
      rfl

theorem evaluate_matched (input : String) (strict : Bool) :
    Matched (fun _ => tracer traced) (fun _ => tracer traced')
      (w.evaluate Session.home input strict) (v.evaluate Session.home input strict) := by
  unfold World.evaluate
  rw [follows.mirror.length]
  exact evaluateAt_matches (fun j => tracer_exchangeable traced traced' j) _ follows.mirror _ input
    strict

/-- After an evaluation its traces are taken out of the journal, and the worlds are as before. -/
theorem settle (input : String) (strict : Bool) :
    (w.evaluate Session.home input strict).1.takeTraces.1 =
        (if traced then v.looked Session.home input strict else []) ∧
      (w.settle input strict).Follows traced traced'
        (v.evaluate Session.home input strict).1 := by
  have told := World.seen_evaluate follows.single Session.home input strict
  rw [follows.quiet, List.nil_append, follows.map_hookCalls] at told
  rcases World.takeTraces_of_seen told with ⟨traces, quiet⟩
  have length := (evaluateAt_keeps w.contexts.length w Session.home input strict).length
  refine ⟨traces, (follows.evaluate_matched input strict).worlds.journals _ _,
    length.trans follows.single, World.isIdle_evaluate follows.idle input strict, quiet⟩

end World.Follows

/-! ## Sessions -/

namespace Session

variable {traced traced' : Bool} {s : Session} {v : World}

/-- An evaluation in a session answers what it answers in the world that the session follows, and
writes the traces of the tokens that are looked at there. -/
theorem call_evaluate (follows : s.world.Follows traced traced' v) (x : String) (strict : Bool) :
    s.call (.evaluate x strict) =
      ({ s with world := s.world.settle x strict },
        ⟨"", if traced then s.palette.traceLines (v.looked home x strict) else ""⟩,
        (v.evaluate home x strict).2) := by
  rcases World.isIdle_iff.mp follows.idle with ⟨c, present, -⟩
  have traces := (follows.settle x strict).1
  have evaluated : s.world.call home (.evaluate x strict) = s.world.evaluate home x strict :=
    perform_evaluate _ present x strict
  have answer := (follows.evaluate_matched x strict).answer
  simp only [call, showTraces, evaluated, traces, answer, World.settle]
  cases traced <;> rfl

/-- What a session writes about an expression. -/
theorem eval_of_follows (follows : s.world.Follows traced traced' v) (x : String)
    (numbered : Bool) :
    let e := v.evaluation home x s.strict
    s.eval x numbered =
      ({ s with world := s.world.settle x s.strict, failed := s.failed || !e.succeeded },
        e.output s.palette traced numbered, e.succeeded) := by
  intro e
  have stack : Session.stack { s with world := s.world.settle x s.strict } =
      (v.evaluate home x s.strict).1.stackOf home :=
    (follows.settle x s.strict).2.mirror.stackOf.symm
  have looked : e.looked = v.looked home x s.strict := rfl
  unfold eval
  rw [call_evaluate follows]
  cases failure : (v.evaluate home x s.strict).2.error? with
  | some message =>
      have result : e.result = .error message := by
        simp only [e, World.evaluation, failure]
      simp [Evaluation.output, Evaluation.listing, Evaluation.message, Evaluation.succeeded, result,
        looked, failure, Except.isOk, Except.toBool]
  | none =>
      have result : e.result = .ok ((v.evaluate home x s.strict).1.stackOf home) := by
        simp only [e, World.evaluation, failure]
      simp [Evaluation.output, Evaluation.listing, Evaluation.message, Evaluation.succeeded, result,
        looked, failure, stack, Except.isOk, Except.toBool]

/-- What a session writes about several expressions, one evaluation after the other. -/
theorem evalAll_of_follows (follows : s.world.Follows traced traced' v) (xs : List String) :
    let es := v.evaluations home s.strict xs
    ∃ w₁, s.evalAll xs =
      ({ s with world := w₁, failed := s.failed || es.any (fun e => !e.succeeded) },
        Evaluation.outputs es s.palette traced) := by
  -- The output before the expressions is arbitrary, and stays in front.
  suffices general : ∀ before : Output, ∃ w₁,
      xs.foldl
        (fun sofar x =>
          ((sofar.1.eval x false).1, sofar.2 ++ (sofar.1.eval x false).2.1)) (s, before) =
      ({ s with
          world := w₁
          failed := s.failed || (v.evaluations home s.strict xs).any (fun e => !e.succeeded) },
        before ++ Evaluation.outputs (v.evaluations home s.strict xs) s.palette traced) by
    rcases general .empty with ⟨w₁, evaluated⟩
    refine ⟨w₁, evaluated.trans ?_⟩
    rw [Output.empty, Output.empty_append]
  induction xs generalizing s v with
  | nil =>
      intro before
      refine ⟨s.world, ?_⟩
      simp [World.evaluations, Evaluation.outputs_nil]
  | cons x xs ih =>
      intro before
      let e := v.evaluation home x s.strict
      let s₁ : Session :=
        { s with world := s.world.settle x s.strict, failed := s.failed || !e.succeeded }
      have follows₁ := (follows.settle x s.strict).2
      rcases ih (s := s₁) follows₁ (before ++ e.output s.palette traced false) with ⟨w₂, rest⟩
      refine ⟨w₂, ?_⟩
      rw [List.foldl_cons]
      simp only [eval_of_follows follows]
      refine rest.trans ?_
      rw [World.evaluations, Evaluation.outputs_cons, List.any_cons, ← Bool.or_assoc,
        Output.append_assoc]

end Session

end ReversePolish
