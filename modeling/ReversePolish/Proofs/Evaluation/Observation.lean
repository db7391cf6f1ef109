import ReversePolish.Proofs.Evaluation.Mirror
import ReversePolish.Proofs.Evaluation.Verdict

/-!
What hooks see of an evaluation.

An evaluation looks at its tokens one after the other, up to the one that stops it. The hook that
watches the context is called for each of these, and for no other, on the stack that the tokens
before it have left. `lookedAt` is said without hooks, and `hookCalls` lists the calls of hooks that
an evaluation makes. Where hooks only look, the two are the same, and so is everything else that
tells an evaluation with hooks from one without.
-/

namespace ReversePolish

/-- The stack of a context. -/
def World.stackOf (w : World) (id : Nat) : List Value :=
  ((w.get? id).map Context.stack).getD []

/-- The hook that is called when a context evaluates: its own, or else the one that is shared. A
context that is closed does not evaluate. -/
def World.watcher? (w : World) (id : Nat) : Option Hook :=
  match w.get? id with
  | none => none
  | some c => if c.closed then none else c.hook <|> w.sharedHook

/-! ## Tokens that are looked at -/

/-- The tokens that a run looks at, each with the stack that it finds. -/
def lookedAt (evaluate : Evaluator) (id : Nat) (strict : Bool) :
    List String → World → List (String × List Value)
  | [], _ => []
  | token :: rest, w =>
    (token, w.stackOf id) ::
      match stepToken evaluate id strict token w with
      | (w₁, .proceed) => lookedAt evaluate id strict rest w₁
      | _ => []

/-- A token is looked at if those before it all proceed, and finds the stack that they leave. -/
theorem getElem?_lookedAt {evaluate : Evaluator} {id : Nat} {strict : Bool} {tokens : List String}
    {w : World} {i : Nat} {token : String} {stack : List Value} :
    (lookedAt evaluate id strict tokens w)[i]? = some (token, stack) ↔
      tokens[i]? = some token ∧
        ∃ w₁, advance evaluate id strict (tokens.take i) w = some w₁ ∧ w₁.stackOf id = stack := by
  induction tokens generalizing w i with
  | nil => simp [lookedAt]
  | cons first rest ih =>
      unfold lookedAt
      cases i with
      | zero => simp [advance]
      | succ i =>
          rw [List.getElem?_cons_succ, List.getElem?_cons_succ, List.take_succ_cons, advance]
          cases stepToken evaluate id strict first w with
          | mk w₁ outcome =>
              cases outcome with
              | proceed => exact ih
              | halt => simp
              | fail reason => simp

/-! ## Calls of hooks -/

/-- A call of a hook: for which token, and on which stack. -/
structure Sighting where
  hook : Hook
  token : String
  stack : List Value

/-- The call of a hook that comes before a token. -/
def sighting? (id : Nat) (token : String) (w : World) : Option Sighting :=
  match w.get? id with
  | none => none
  | some c => (c.hook <|> w.sharedHook).map (fun hook => ⟨hook, token, c.stack⟩)

/-- What a hook does when it is called. -/
def Sighting.run (s : Sighting) (evaluate : Evaluator) (id : Nat) (w : World) : World :=
  match s.hook with
  | .trace => w.note (.traced s.token s.stack.length)
  | .script label body => runScript evaluate id body (w.note (.observed label s.token s.stack.length))

/-- Before a token, this hook is called and no other, and nothing else is done. -/
theorem callHook_eq (evaluate : Evaluator) (id : Nat) (token : String) (w : World) :
    callHook evaluate id token w =
      match sighting? id token w with
      | none => w
      | some s => s.run evaluate id w := by
  unfold callHook sighting?
  cases w.get? id with
  | none => rfl
  | some c =>
      dsimp only
      cases c.hook <|> w.sharedHook with
      | none => rfl
      | some hook => cases hook <;> rfl

/-- The calls of hooks that a run of tokens makes, in their order. Those of the evaluations that
callbacks ask for in between are not among them. -/
def hookCalls (evaluate : Evaluator) (id : Nat) (strict : Bool) :
    List String → World → List Sighting
  | [], _ => []
  | token :: rest, w =>
    (sighting? id token (w.modify id (Context.look token))).toList ++
      match stepToken evaluate id strict token w with
      | (w₁, .proceed) => hookCalls evaluate id strict rest w₁
      | _ => []

/-- The calls of hooks that the evaluation of an expression makes. One that is refused makes none. -/
def World.hookCalls (w : World) (id : Nat) (input : String) (strict : Bool) : List Sighting :=
  if w.isIdle id then
    ReversePolish.hookCalls (evaluateAt (w.contexts.length - 1)) id strict (Token.tokenize input)
      (w.modify id Context.start)
  else []

/-- In mirrored worlds the hook on one side is called for what is looked at on the other. -/
theorem hookCalls_eq {left right : Nat → Option Hook}
    (exchange : ∀ j, Exchangeable j (left j) (right j)) (n : Nat) {w v : World}
    (mirror : Mirror left right w v) {id : Nat} {c : Context} {last : String}
    (present : w.get? id = some c) (underway : c.record = .underway last) (strict : Bool)
    (tokens : List String) :
    hookCalls (evaluateAt n) id strict tokens w =
      (lookedAt (evaluateAt n) id strict tokens v).flatMap
        (fun seen => ((left id).map (fun hook => ⟨hook, seen.1, seen.2⟩)).toList) := by
  induction tokens generalizing w v c last with
  | nil => rfl
  | cons token rest ih =>
      have inner := evaluateAt_matches exchange n
      have step := stepToken_matched exchange inner mirror present underway strict token
      rcases @stepToken_underway _ id strict (evaluateAt_keeps n) _ _ _ present underway token with
        ⟨c₁, present₁, underway₁⟩
      rcases mirror.get? present with ⟨hook, present', twin⟩
      have seen : sighting? id token (w.modify id (Context.look token)) =
          (left id).map (fun hook => ⟨hook, token, v.stackOf id⟩) := by
        have watcher := (twin.watched (congrArg Record.closed underway)).1
        have stack : v.stackOf id = c.stack := by
          rw [World.stackOf, present']
          rfl
        rw [sighting?, World.get?_modify_self present, stack, ← watcher,
          World.modify_eq_put present]
        rfl
      rw [hookCalls, lookedAt, List.flatMap_cons, seen]
      generalize stepToken (evaluateAt n) id strict token w = one at step present₁
      generalize stepToken (evaluateAt n) id strict token v = other at step
      rcases one with ⟨w₁, outcome⟩
      rcases other with ⟨v₁, outcome'⟩
      rcases step with ⟨mirror₁, rfl⟩
      cases outcome with
      | proceed => exact congrArg (_ ++ ·) (ih mirror₁ present₁ underway₁)
      | halt => rfl
      | fail reason => rfl

/-! ## Calls in the journal -/

/-- What a note tells about the call of a hook: the label of the hook, unless it traces, the token,
and the size of the stack. -/
def Event.seen? : Event → Option (Option String × String × Nat)
  | .observed label token depth => some (some label, token, depth)
  | .traced token depth => some (none, token, depth)
  | _ => none

/-- What the journal tells about the calls of hooks, the first one first. -/
def World.seen (w : World) : List (Option String × String × Nat) :=
  w.journal.reverse.filterMap Event.seen?

def Hook.label? : Hook → Option String
  | .trace => none
  | .script label _ => some label

def Sighting.seen (s : Sighting) : Option String × String × Nat :=
  (s.hook.label?, s.token, s.stack.length)

namespace World

theorem seen_of_journal {w w₁ : World} (same : w₁.journal = w.journal) : w₁.seen = w.seen := by
  rw [seen, seen, same]

theorem seen_note (w : World) (e : Event) : (w.note e).seen = w.seen ++ e.seen?.toList := by
  rw [seen, note, List.reverse_cons, List.filterMap_append]
  cases e <;> rfl

end World

/-- A call from inside the only evaluation that is admitted calls no hook. -/
theorem seen_perform (w : World) (id : Nat) (call : Call) :
    (perform (evaluateAt 0) w id call).1.seen = w.seen := by
  unfold perform
  cases w.get? id with
  | none => rfl
  | some c =>
      cases call with
      | evaluate input strict =>
          show (refuseEvaluation w id input strict).1.seen = _
          rw [refuseEvaluation_world]
      | hook shared hook => cases shared <;> rfl
      | _ => rfl

theorem seen_runScript (self : Nat) (body : List Step) (w : World) :
    (runScript (evaluateAt 0) self body w).seen = w.seen := by
  induction body generalizing w with
  | nil => rfl
  | cons step body ih =>
      rcases step with ⟨target, call⟩
      have rest := ih ((perform (evaluateAt 0) w (target.getD self) call).1.note
        (.performed call (perform (evaluateAt 0) w (target.getD self) call).2))
      rw [World.seen_note, seen_perform] at rest
      exact rest.trans (List.append_nil _)

theorem seen_callHook (id : Nat) (token : String) (w : World) :
    (callHook (evaluateAt 0) id token w).seen =
      w.seen ++ ((sighting? id token w).map Sighting.seen).toList := by
  rw [callHook_eq]
  cases sighting? id token w with
  | none => exact (List.append_nil _).symm
  | some s =>
      rcases s with ⟨hook, token, stack⟩
      cases hook with
      | trace => exact World.seen_note _ _
      | script label body => exact (seen_runScript _ _ _).trans (World.seen_note _ _)

theorem seen_handleToken (id : Nat) (strict : Bool) (token : String) (w : World) :
    (handleToken (evaluateAt 0) id strict token w).1.seen = w.seen := by
  rw [handleToken_eq_runScript, seen_runScript]
  rcases dispatch_cases id strict token w with same | ⟨c, stack, -, changed⟩
  · rw [same]
  · rw [changed]
    rfl

/-- If no evaluation is admitted inside it, a run leaves in the journal one note for each call of a
hook, in their order. -/
theorem seen_runTokens (id : Nat) (strict : Bool) (position : Nat) (tokens : List String)
    (w : World) :
    (runTokens (evaluateAt 0) id strict position tokens w).1.seen =
      w.seen ++ (hookCalls (evaluateAt 0) id strict tokens w).map Sighting.seen := by
  induction tokens generalizing position w with
  | nil => exact (List.append_nil _).symm
  | cons token rest ih =>
      have looked := seen_callHook id token (w.modify id (Context.look token))
      have step : (stepToken (evaluateAt 0) id strict token w).1.seen =
          w.seen ++ ((sighting? id token (w.modify id (Context.look token))).map
            Sighting.seen).toList := by
        rw [stepToken, seen_handleToken, looked,
          World.seen_of_journal (World.journal_modify w id _)]
      rw [runTokens_cons, hookCalls, List.map_append, ← Option.toList_map, ← List.append_assoc,
        ← step]
      generalize stepToken (evaluateAt 0) id strict token w = result
      rcases result with ⟨w₁, outcome⟩
      have ended (f : Context → Context) : (w₁.modify id f).seen = w₁.seen ++ [] := by
        rw [World.seen_of_journal (World.journal_modify w₁ id f), List.append_nil]
      cases outcome with
      | proceed => exact ih (position + 1) w₁
      | halt => exact ended _
      | fail reason => exact ended _

/-! ## With hooks and without -/

/-- A context without its hook. -/
def Context.unhooked (c : Context) : Context :=
  { c with hook := none }

/-- The world in which nobody watches a context: it has no hook, and none is shared. -/
def World.unwatched (w : World) (id : Nat) : World :=
  { w.modify id Context.unhooked with sharedHook := none }

/-- A world in which a context is only observed, if it is watched at all. No operator sets or removes
hooks; the other contexts are observed as well, or have hooks of their own that leave hooks
alone. -/
structure World.Observed (w : World) (id : Nat) : Prop where
  operators : ∀ {j : Nat} {d : Context}, w.get? j = some d →
    ∀ op ∈ d.operators.entries, op.leavesHooks = true
  hooks : ∀ {j : Nat} {d : Context}, w.get? j = some d → d.closed = false →
    (d.hook <|> w.sharedHook).all (Hook.observes j) = true ∨
      j ≠ id ∧ ∃ hook, d.hook = some hook ∧ hook.leavesHooks = true

theorem World.watcher?_of_open {w : World} {id : Nat} {c : Context}
    (present : w.get? id = some c) (isOpen : c.closed = false) :
    w.watcher? id = (c.hook <|> w.sharedHook) := by
  rw [watcher?, present]
  dsimp only
  rw [isOpen]
  rfl

theorem World.watcher?_of_closed {w : World} {id : Nat} {c : Context}
    (present : w.get? id = some c) (closed : c.closed = true) : w.watcher? id = none := by
  rw [watcher?, present]
  exact if_pos closed

section Unwatched

variable {w : World} {id : Nat} {c : Context}

theorem World.get?_unwatched_self (present : w.get? id = some c) :
    (w.unwatched id).get? id = some c.unhooked :=
  World.get?_modify_self present _

theorem World.get?_unwatched_ne {j : Nat} (other : j ≠ id) :
    (w.unwatched id).get? j = w.get? j :=
  World.get?_modify_ne other _

/-- The world without hooks is the one with hooks, in a mirror. -/
theorem World.Observed.mirror (observed : w.Observed id) (present : w.get? id = some c) :
    Mirror w.watcher? (w.unwatched id).watcher? w (w.unwatched id) where
  length := World.length_modify w id _
  twin := by
    intro j d e there there'
    have same : e = { d with hook := e.hook } := by
      by_cases own : j = id
      · subst own
        rw [World.get?_unwatched_self there, Option.some.injEq] at there'
        rw [← there']
        rfl
      · rw [World.get?_unwatched_ne own, there, Option.some.injEq] at there'
        rw [← there']
    refine ⟨same, observed.operators there, fun isOpen => ?_⟩
    have isOpen' : e.closed = false := by
      rw [same]
      exact isOpen
    exact ⟨(World.watcher?_of_open there isOpen).symm,
      (World.watcher?_of_open there' isOpen').symm⟩

/-- Without the shared hook a context is watched by its own, or by none. -/
theorem World.Observed.exchangeable_own (observed : w.Observed id) {j : Nat} {d : Context}
    (there : w.get? j = some d) (isOpen : d.closed = false) :
    Exchangeable j (d.hook <|> w.sharedHook) d.hook := by
  rcases observed.hooks there isOpen with looks | ⟨-, hook, own, leaves⟩
  · refine .inr ⟨looks, ?_⟩
    cases own : d.hook with
    | none => rfl
    | some hook =>
        rw [own] at looks
        exact looks
  · rw [own]
    exact .inl ⟨rfl, leaves⟩

theorem World.Observed.exchangeable (observed : w.Observed id) (present : w.get? id = some c)
    (j : Nat) : Exchangeable j (w.watcher? j) ((w.unwatched id).watcher? j) := by
  cases there : w.get? j with
  | none =>
      have there' := (observed.mirror present).get?_none there
      rw [World.watcher?, World.watcher?, there, there']
      exact .inr ⟨rfl, rfl⟩
  | some d =>
      rcases (observed.mirror present).get? there with ⟨hook, there', -⟩
      cases isOpen : d.closed with
      | true =>
          rw [World.watcher?_of_closed there isOpen, World.watcher?_of_closed there' isOpen]
          exact .inr ⟨rfl, rfl⟩
      | false =>
          rw [World.watcher?_of_open there isOpen, World.watcher?_of_open there' isOpen]
          by_cases own : j = id
          · subst own
            rw [World.get?_unwatched_self there, Option.some.injEq] at there'
            rw [← congrArg Context.hook there']
            rcases observed.hooks there isOpen with looks | ⟨apart, -⟩
            · exact .inr ⟨looks, rfl⟩
            · exact absurd rfl apart
          · rw [World.get?_unwatched_ne own, there, Option.some.injEq] at there'
            rw [← congrArg Context.hook there']
            show Exchangeable j _ (d.hook <|> none)
            rw [show (d.hook <|> none) = d.hook by cases d.hook <;> rfl]
            exact observed.exchangeable_own there isOpen

end Unwatched

/-- Contexts in mirrored worlds are the same but for their hooks. -/
theorem Mirror.map_unhooked {left right : Nat → Option Hook} {w v : World}
    (mirror : Mirror left right w v) (j : Nat) :
    (w.get? j).map Context.unhooked = (v.get? j).map Context.unhooked := by
  cases there : w.get? j with
  | none => rw [mirror.get?_none there]
  | some d =>
      rcases mirror.get? there with ⟨hook, there', -⟩
      rw [there']
      rfl

/-- One call of a hook for each token that is looked at. -/
theorem getElem?_flatMap_sighting (watcher : Option Hook) (looked : List (String × List Value))
    (i : Nat) (s : Sighting) :
    (looked.flatMap (fun seen =>
        (watcher.map (fun hook => (⟨hook, seen.1, seen.2⟩ : Sighting))).toList))[i]? = some s ↔
      watcher = some s.hook ∧ looked[i]? = some (s.token, s.stack) := by
  cases watcher with
  | none => simp
  | some hook =>
      have mapped : looked.flatMap (fun seen =>
          ((some hook).map (fun hook => (⟨hook, seen.1, seen.2⟩ : Sighting))).toList) =
          looked.map (fun seen => ⟨hook, seen.1, seen.2⟩) :=
        List.flatMap_pure_eq_map _ _
      rw [mapped, List.getElem?_map, Option.map_eq_some_iff, Option.some.injEq]
      rcases s with ⟨own, token, stack⟩
      constructor
      · rintro ⟨⟨token', stack'⟩, here, same⟩
        cases same
        exact ⟨rfl, here⟩
      · rintro ⟨rfl, here⟩
        exact ⟨_, here, rfl⟩

section Observed

variable {w : World} {id : Nat} {c : Context} (present : w.get? id = some c)
  (observed : w.Observed id) (input : String) (strict : Bool)
include present observed

/-- Which calls of hooks an evaluation makes, said by the world in which nobody watches. -/
theorem World.Observed.getElem?_hookCalls (i : Nat) (s : Sighting) :
    (w.hookCalls id input strict)[i]? = some s ↔
      w.isIdle id = true ∧ w.watcher? id = some s.hook ∧
        (Token.tokenize input)[i]? = some s.token ∧
        ∃ v₁, advance (evaluateAt (w.contexts.length - 1)) id strict ((Token.tokenize input).take i)
          ((w.unwatched id).modify id Context.start) = some v₁ ∧ v₁.stackOf id = s.stack := by
  unfold World.hookCalls
  cases idle : w.isIdle id with
  | false => simp
  | true =>
      rcases World.isIdle_iff.mp idle with ⟨d, there, isOpen, -⟩
      have started := World.get?_modify_self there Context.start
      have mirror : Mirror w.watcher? (w.unwatched id).watcher? (w.modify id Context.start)
          ((w.unwatched id).modify id Context.start) :=
        (observed.mirror present).modify (fun _ _ => rfl) (fun _ => rfl) (fun _ => rfl)
      rw [if_pos rfl, hookCalls_eq (observed.exchangeable present) _ mirror started
        (d.record_start isOpen), getElem?_flatMap_sighting, getElem?_lookedAt]
      simp

end Observed

/-- The journal of a world with a single context has one note for each call of a hook. -/
theorem World.seen_evaluate {w : World} (single : w.contexts.length = 1) (id : Nat)
    (input : String) (strict : Bool) :
    (w.evaluate id input strict).1.seen =
      w.seen ++ (w.hookCalls id input strict).map Sighting.seen := by
  unfold World.hookCalls
  cases idle : w.isIdle id with
  | false =>
      rw [World.evaluate, evaluateAt_of_not_idle _ idle, refuseEvaluation_world,
        if_neg Bool.false_ne_true, List.map_nil, List.append_nil]
  | true =>
      rcases World.isIdle_iff.mp idle with ⟨d, there, isOpen, free⟩
      rw [evaluate_eq_finish_modify there isOpen free, finish,
        World.seen_of_journal (World.journal_modify _ id _), single, if_pos rfl, seen_runTokens,
        World.seen_of_journal (World.journal_modify w id _)]

/-- Hooks that only look do not interfere. An evaluation on a context that is observed answers what
it answers if nobody watches, and leaves the same contexts, whatever its operators do on whichever
context of the world, short of setting hooks. Before the token at a place the hook is called if and
only if the tokens before that place all proceed, and on the stack that they leave if nobody
watches. The shared hook is not called where a context has its own; and if no other context can
evaluate in between, these calls are the ones that the journal tells of. -/
theorem observed_evaluation {w : World} {id : Nat} {c : Context} (present : w.get? id = some c)
    (observed : w.Observed id) (input : String) (strict : Bool) :
    (w.evaluate id input strict).2 = ((w.unwatched id).evaluate id input strict).2 ∧
      (∀ j, ((w.evaluate id input strict).1.get? j).map Context.unhooked =
        (((w.unwatched id).evaluate id input strict).1.get? j).map Context.unhooked) ∧
      (∀ i s, (w.hookCalls id input strict)[i]? = some s ↔
        w.isIdle id = true ∧ w.watcher? id = some s.hook ∧
          (Token.tokenize input)[i]? = some s.token ∧
          ∃ v₁, advance (evaluateAt (w.contexts.length - 1)) id strict
            ((Token.tokenize input).take i) ((w.unwatched id).modify id Context.start) = some v₁ ∧
              v₁.stackOf id = s.stack) ∧
      (∀ hook, c.hook = some hook → ∀ s ∈ w.hookCalls id input strict, s.hook = hook) ∧
      (w.contexts.length = 1 → (w.evaluate id input strict).1.seen =
        w.seen ++ (w.hookCalls id input strict).map Sighting.seen) := by
  have mirror := observed.mirror present
  have calls := observed.getElem?_hookCalls present input strict
  have matched := evaluateAt_matches (observed.exchangeable present) w.contexts.length mirror id
    input strict
  have level : (w.unwatched id).evaluate id input strict =
      evaluateAt w.contexts.length (w.unwatched id) id input strict := by
    rw [World.evaluate, mirror.length]
  rw [level]
  refine ⟨matched.answer, matched.worlds.map_unhooked, calls, fun hook own s member => ?_,
    fun single => World.seen_evaluate single id input strict⟩
  rcases List.getElem?_of_mem member with ⟨i, here⟩
  rcases (calls i s).mp here with ⟨idle, watcher, -⟩
  rcases World.isIdle_iff.mp idle with ⟨d, there, isOpen, -⟩
  cases present.symm.trans there
  rw [World.watcher?_of_open present isOpen, own] at watcher
  exact (Option.some.inj watcher).symm

/-- An operator that evaluates on another context, gives itself a new operator, and tries to close
the context that called it. -/
def errand : Callback :=
  .run [.on (some 1) (.evaluate "3" false), .on none (.register "late" 0 (some (.run [] .halt))),
    .on none .close] .proceed

/-- A hook that looks, and asks for what it does not get. -/
def onlooker (label : String) : Hook :=
  .script label [.on none .size, .on none (.peek 0), .on none (.evaluate "9" false), .on none .close]

theorem observed_evaluation_errand :
    let w : World :=
      ⟨[{ Context.new { builtins := false, hook := some (onlooker "own") } with
            operators := (Registry.empty .shadow).insert (.custom "errand" 0 errand) },
          Context.new { builtins := false }], some (onlooker "shared"), []⟩
    (w.evaluate 0 "1 errand late 2" false).2 =
        ((w.unwatched 0).evaluate 0 "1 errand late 2" false).2 ∧
      (w.hookCalls 0 "1 errand late 2" false)[1]? =
        some ⟨onlooker "own", "errand", [Token.literalValue "1"]⟩ := by
  intro w
  have observed : w.Observed 0 := by
    constructor
    · intro j d there op member
      match j, there with
      | 0, rfl =>
          rw [List.mem_singleton.mp member]
          rfl
      | 1, rfl => cases member
    · intro j d there isOpen
      match j, there with
      | 0, rfl => exact .inl rfl
      | 1, rfl => exact .inl rfl
  have words : Token.tokenize "1 errand late 2" = ["1", "errand", "late", "2"] := by
    decide +kernel
  rcases observed_evaluation (w := w) rfl observed "1 errand late 2" false with
    ⟨same, -, calls, -⟩
  refine ⟨same, (calls 1 _).mpr ⟨rfl, rfl, ?_, ?_⟩⟩
  · rw [words]
    rfl
  · rw [words]
    exact ⟨_, rfl, rfl⟩

end ReversePolish
