import ReversePolish.Proofs.Evaluation.Concatenation
import ReversePolish.Proofs.Operator.Lookup

/-!
Worlds that differ in their hooks.

A hook that only looks at the context it is called with, and asks of it nothing but what a busy
context refuses, leaves no trace outside the journal. So two worlds that are the same but for such
hooks stay the same, but for them, whatever is evaluated; a hook that is the same in both worlds may
do more than look. What has to be ruled out are callbacks that set or remove hooks, because they
could tell the two worlds apart later.

`Mirror` relates two such worlds. Which hook watches which context is a parameter on either side,
and stays the same along a run; contexts that are closed are not watched any more. Every piece of an
evaluation carries one pair of mirrored worlds into another, with the same answer (`Matched`).
-/

namespace ReversePolish

/-! ## Callbacks that leave hooks alone, and hooks that only look -/

mutual

/-- Whether a call sets or removes no hook, and brings along no callback that does. A call to close
does remove the hook of its context, which is never asked for again. -/
def Call.leavesHooks : Call → Bool
  | .register _ _ (some callback) => callback.leavesHooks
  | .hook .. => false
  | _ => true

def Step.leavesHooks : Step → Bool
  | .on _ call => call.leavesHooks

def Callback.leavesHooks : Callback → Bool
  | .run body _ => stepsLeaveHooks body

def stepsLeaveHooks : List Step → Bool
  | [] => true
  | step :: rest => step.leavesHooks && stepsLeaveHooks rest

end

def Operator.leavesHooks : Operator → Bool
  | .builtin _ => true
  | .custom _ _ callback => callback.leavesHooks

def Hook.leavesHooks : Hook → Bool
  | .trace => true
  | .script _ body => stepsLeaveHooks body

/-- Whether a call only looks at a context, or asks of it what it refuses while it evaluates. -/
def Call.observes : Call → Bool
  | .evaluate .. | .close => true
  | .peek _ | .size | .get _ | .variableCount | .variableNames | .operator _ | .operators => true
  | _ => false

/-- Whether a step of a callback on a context observes that context. -/
def Step.observes (id : Nat) : Step → Bool
  | .on target call => target.getD id == id && call.observes

def Hook.observes (id : Nat) : Hook → Bool
  | .trace => true
  | .script _ body => body.all (Step.observes id)

/-- Hooks on a context that can take the place of each other: they are the same and leave hooks
alone, or each of them only looks, if there is one. -/
def Exchangeable (id : Nat) (left right : Option Hook) : Prop :=
  left = right ∧ left.all Hook.leavesHooks = true ∨
    left.all (Hook.observes id) = true ∧ right.all (Hook.observes id) = true

/-! ## Mirrored worlds -/

/-- Contexts that differ in their hooks, next to hooks that are shared. As long as they are open,
they are watched by `left` and by `right`. -/
structure Twin (shared shared' left right : Option Hook) (c d : Context) : Prop where
  same : d = { c with hook := d.hook }
  operators : ∀ op ∈ c.operators.entries, op.leavesHooks = true
  watched : c.closed = false → (c.hook <|> shared) = left ∧ (d.hook <|> shared') = right

/-- Worlds that differ in their hooks and in their journals. The context `j` is watched by `left j`
and by `right j`. -/
structure Mirror (left right : Nat → Option Hook) (w v : World) : Prop where
  length : v.contexts.length = w.contexts.length
  twin : ∀ {j : Nat} {c d : Context}, w.get? j = some c → v.get? j = some d →
    Twin w.sharedHook v.sharedHook (left j) (right j) c d

/-- Results with the same answer, in mirrored worlds. -/
structure Matched {α : Type} (left right : Nat → Option Hook) (one other : World × α) : Prop where
  worlds : Mirror left right one.1 other.1
  answer : one.2 = other.2

/-- Evaluations that give matched results in mirrored worlds. -/
def Evaluator.Matches (evaluate : Evaluator) (left right : Nat → Option Hook) : Prop :=
  ∀ ⦃w v : World⦄, Mirror left right w v → ∀ (id : Nat) (input : String) (strict : Bool),
    Matched left right (evaluate w id input strict) (evaluate v id input strict)

namespace Twin

variable {shared shared' left right : Option Hook} {c d : Context}

theorem exists_hook (twin : Twin shared shared' left right c d) :
    ∃ hook, d = { c with hook := hook } :=
  ⟨d.hook, twin.same⟩

/-- A change that concerns neither hooks nor operators, made to both contexts. -/
theorem update {hook : Option Hook} (twin : Twin shared shared' left right c { c with hook := hook })
    {e : Context} (operators : e.operators = c.operators) (closed : e.closed = c.closed)
    (kept : e.hook = c.hook) : Twin shared shared' left right e { e with hook := hook } where
  same := rfl
  operators := by
    rw [operators]
    exact twin.operators
  watched := by
    rw [closed, kept]
    exact twin.watched

theorem register (twin : Twin shared shared' left right c d) {name : String} {arity : Int}
    {callback : Option Callback} (kept : (Call.register name arity callback).leavesHooks = true) :
    (c.perform (.register name arity callback)).2 = (d.perform (.register name arity callback)).2 ∧
      Twin shared shared' left right (c.perform (.register name arity callback)).1
        (d.perform (.register name arity callback)).1 := by
  rcases twin.exists_hook with ⟨hook, rfl⟩
  simp only [Context.perform]
  rcases c.operators.register_cases name arity callback with ⟨error, refused⟩ | ⟨body, rfl, taken⟩
  · rw [refused]
    exact ⟨rfl, twin⟩
  · rw [taken]
    refine ⟨rfl, rfl, fun op member => ?_, twin.watched⟩
    rcases List.mem_append.mp member with old | new
    · exact twin.operators op old
    · rw [List.mem_singleton.mp new]
      exact kept

/-- A context that is closed is no longer watched, so it may lose its hook. -/
theorem close (twin : Twin shared shared' left right c d) :
    c.close.2 = d.close.2 ∧ Twin shared shared' left right c.close.1 d.close.1 := by
  rcases twin.exists_hook with ⟨hook, rfl⟩
  unfold Context.close
  dsimp only
  split
  · exact ⟨rfl, twin⟩
  · split
    · exact ⟨rfl, twin⟩
    · exact ⟨rfl, rfl, fun _ member => absurd member List.not_mem_nil, nofun⟩

/-- Calls that leave hooks alone are answered alike. -/
theorem perform (twin : Twin shared shared' left right c d) {call : Call}
    (kept : call.leavesHooks = true) :
    (c.perform call).2 = (d.perform call).2 ∧
      Twin shared shared' left right (c.perform call).1 (d.perform call).1 := by
  rcases twin.exists_hook with ⟨hook, rfl⟩
  cases call with
  | pop =>
      simp only [Context.perform]
      split <;> exact ⟨rfl, twin.update rfl rfl rfl⟩
  | peek i =>
      have found : Context.peek? { c with hook := hook } i = c.peek? i := rfl
      simp only [Context.perform, found]
      split <;> exact ⟨rfl, twin⟩
  | store name =>
      simp only [Context.perform]
      split <;> exact ⟨rfl, twin.update rfl rfl rfl⟩
  | register name arity callback => exact twin.register kept
  | clearOperators =>
      exact ⟨rfl, rfl, fun _ member => absurd member List.not_mem_nil, twin.watched⟩
  | hook shared hook => cases kept
  | close => exact twin.close
  | _ => exact ⟨rfl, twin.update rfl rfl rfl⟩

end Twin

namespace Mirror

variable {left right : Nat → Option Hook} {w v : World} {id : Nat} {c d : Context}

theorem get? (mirror : Mirror left right w v) (present : w.get? id = some c) :
    ∃ hook, v.get? id = some { c with hook := hook } ∧
      Twin w.sharedHook v.sharedHook (left id) (right id) c { c with hook := hook } := by
  have bound : id < v.contexts.length := by
    rw [mirror.length]
    exact World.lt_length_of_get? present
  have there : v.get? id = some v.contexts[id] := List.getElem?_eq_getElem bound
  have twin := mirror.twin present there
  rw [twin.same] at there twin
  exact ⟨_, there, twin⟩

theorem get?_none (mirror : Mirror left right w v) (absent : w.get? id = none) :
    v.get? id = none := by
  rw [World.get?, List.getElem?_eq_none_iff] at absent ⊢
  rwa [mirror.length]

/-- Both contexts are replaced. -/
theorem put (mirror : Mirror left right w v) {c' d' : Context} (present : w.get? id = some c)
    (present' : v.get? id = some d)
    (twin : Twin w.sharedHook v.sharedHook (left id) (right id) c' d') :
    Mirror left right (w.put id c') (v.put id d') where
  length := by
    rw [World.length_put, World.length_put, mirror.length]
  twin := by
    intro j e e' there there'
    by_cases same : j = id
    · subst same
      rw [World.get?_put_self present, Option.some.injEq] at there
      rw [World.get?_put_self present', Option.some.injEq] at there'
      subst there there'
      exact twin
    · rw [World.get?_put_ne same] at there there'
      exact mirror.twin there there'

/-- The journals do not matter. -/
theorem journals (mirror : Mirror left right w v) (notes notes' : List Event) :
    Mirror left right { w with journal := notes } { v with journal := notes' } :=
  ⟨mirror.length, mirror.twin⟩

theorem note (mirror : Mirror left right w v) (e e' : Event) :
    Mirror left right (w.note e) (v.note e') :=
  mirror.journals _ _

/-- A change that concerns neither hooks nor operators, made in both worlds. -/
theorem modify (mirror : Mirror left right w v) {f : Context → Context}
    (hooks : ∀ e hook, f { e with hook := hook } = { f e with hook := hook })
    (operators : ∀ e, (f e).operators = e.operators) (closed : ∀ e, (f e).closed = e.closed) :
    Mirror left right (w.modify id f) (v.modify id f) := by
  cases present : w.get? id with
  | none =>
      have absent := mirror.get?_none present
      unfold World.modify
      rw [present, absent]
      exact mirror
  | some c =>
      rcases mirror.get? present with ⟨hook, present', twin⟩
      have kept : (f c).hook = c.hook := by
        have same := congrArg Context.hook (hooks c c.hook)
        exact same
      rw [World.modify_eq_put present, World.modify_eq_put present', hooks c hook]
      exact mirror.put present present' (twin.update (operators c) (closed c) kept)

end Mirror

/-! ## Observing hooks -/

/-- A busy context refuses an evaluation. -/
theorem evaluateAt_of_busy {w : World} {id : Nat} {c : Context} (n : Nat)
    (present : w.get? id = some c) (isOpen : c.closed = false) (busy : c.busy = true)
    (input : String) (strict : Bool) : evaluateAt n w id input strict = (w, .busy) := by
  have other : w.isIdle id = false := by
    rw [World.isIdle, present, Option.any_some, busy, Bool.not_true, Bool.and_false]
  rw [evaluateAt_of_not_idle n other, refuseEvaluation, present]
  simp only [isOpen, Bool.false_eq_true, if_false]

section Observing

variable {w : World} {id : Nat} {c : Context} (n : Nat) (present : w.get? id = some c)
  (isOpen : c.closed = false) (busy : c.busy = true)
include present isOpen busy

theorem perform_of_observes {call : Call} (observes : call.observes = true) :
    ∃ reply, perform (evaluateAt n) w id call = (w, reply) := by
  have looked (call : Call) (same : (c.perform call).1 = c) :
      (w.put id (c.perform call).1, (c.perform call).2) = (w, (c.perform call).2) := by
    rw [same, World.put_get? present]
  unfold perform
  rw [present]
  cases call with
  | evaluate input strict => exact ⟨_, evaluateAt_of_busy n present isOpen busy input strict⟩
  | peek i =>
      refine ⟨_, looked (.peek i) ?_⟩
      simp only [Context.perform]
      split <;> rfl
  | close =>
      refine ⟨_, looked .close ?_⟩
      simp only [Context.perform, Context.close, isOpen, busy, Bool.false_eq_true, if_false, if_true]
  | size => exact ⟨_, looked .size rfl⟩
  | get name => exact ⟨_, looked (.get name) rfl⟩
  | variableCount => exact ⟨_, looked .variableCount rfl⟩
  | variableNames => exact ⟨_, looked .variableNames rfl⟩
  | operator name => exact ⟨_, looked (.operator name) rfl⟩
  | operators => exact ⟨_, looked .operators rfl⟩
  | _ => cases observes

/-- A script that observes a busy context only adds to the journal. -/
theorem runScript_of_observes {body : List Step} (observes : body.all (Step.observes id) = true) :
    ∃ notes, runScript (evaluateAt n) id body w = { w with journal := notes } := by
  induction body generalizing w with
  | nil => exact ⟨w.journal, rfl⟩
  | cons step body ih =>
      rcases step with ⟨target, call⟩
      simp only [List.all_cons, Step.observes, Bool.and_eq_true, beq_iff_eq] at observes
      rcases observes with ⟨⟨here, looks⟩, rest⟩
      rcases perform_of_observes n present isOpen busy looks with ⟨reply, performed⟩
      rcases ih (w := w.note (.performed call reply)) present rest with ⟨notes, run⟩
      refine ⟨notes, ?_⟩
      simp only [runScript, List.foldl_cons, here, performed] at run ⊢
      exact run

theorem callHook_of_observes (token : String)
    (observes : (c.hook <|> w.sharedHook).all (Hook.observes id) = true) :
    ∃ notes, callHook (evaluateAt n) id token w = { w with journal := notes } := by
  unfold callHook
  rw [present]
  dsimp only
  cases watcher : c.hook <|> w.sharedHook with
  | none => exact ⟨w.journal, rfl⟩
  | some hook =>
      rw [watcher, Option.all_some] at observes
      cases hook with
      | trace => exact ⟨_, rfl⟩
      | script label body =>
          have noted : (w.note (.observed label token c.stack.length)).get? id = some c := present
          exact runScript_of_observes n noted isOpen busy observes

end Observing

/-! ## Evaluations -/

section Parts

variable {left right : Nat → Option Hook} (exchange : ∀ j, Exchangeable j (left j) (right j))
  {n : Nat} (inner : (evaluateAt n).Matches left right) {w v : World}
  (mirror : Mirror left right w v)

section
include inner mirror

theorem perform_matched (id : Nat) {call : Call} (kept : call.leavesHooks = true) :
    Matched left right (perform (evaluateAt n) w id call) (perform (evaluateAt n) v id call) := by
  unfold perform
  cases present : w.get? id with
  | none =>
      rw [mirror.get?_none present]
      exact ⟨mirror, rfl⟩
  | some c =>
      rcases mirror.get? present with ⟨hook, present', twin⟩
      have alone {call : Call} (kept : call.leavesHooks = true) :
          Matched left right (w.put id (c.perform call).1, (c.perform call).2)
            (v.put id (Context.perform { c with hook := hook } call).1,
              (Context.perform { c with hook := hook } call).2) :=
        ⟨mirror.put present present' (twin.perform kept).2, (twin.perform kept).1⟩
      rw [present']
      cases call with
      | evaluate input strict => exact inner mirror id input strict
      | hook shared hook => cases kept
      | _ => exact alone kept

theorem runScript_mirror (self : Nat) {body : List Step} (kept : stepsLeaveHooks body = true) :
    Mirror left right (runScript (evaluateAt n) self body w)
      (runScript (evaluateAt n) self body v) := by
  induction body generalizing w v with
  | nil => exact mirror
  | cons step body ih =>
      rcases step with ⟨target, call⟩
      simp only [stepsLeaveHooks, Step.leavesHooks, Bool.and_eq_true] at kept
      have first := perform_matched inner mirror (target.getD self) kept.1
      exact ih (first.worlds.note _ _) kept.2

theorem callOperator_matched {id : Nat} {c : Context} {hook : Option Hook}
    (present : w.get? id = some c) (present' : v.get? id = some { c with hook := hook })
    (twin : Twin w.sharedHook v.sharedHook (left id) (right id) c { c with hook := hook })
    {op : Operator} (kept : op.leavesHooks = true) :
    Matched left right (callOperator (evaluateAt n) id c op w)
      (callOperator (evaluateAt n) id { c with hook := hook } op v) := by
  unfold callOperator
  cases op with
  | builtin b =>
      dsimp only
      split
      · exact ⟨mirror.put present present' (twin.update rfl rfl rfl), rfl⟩
      · exact ⟨mirror.note _ _, rfl⟩
  | custom name arity callback =>
      rcases callback with ⟨body, outcome⟩
      exact ⟨runScript_mirror inner mirror id kept, rfl⟩

theorem handleToken_matched (id : Nat) (strict : Bool) (token : String) :
    Matched left right (handleToken (evaluateAt n) id strict token w)
      (handleToken (evaluateAt n) id strict token v) := by
  unfold handleToken
  cases present : w.get? id with
  | none =>
      rw [mirror.get?_none present]
      exact ⟨mirror, rfl⟩
  | some c =>
      rcases mirror.get? present with ⟨hook, present', twin⟩
      have pushed (x : Value) : Mirror left right (w.put id (c.push x))
          (v.put id (Context.push { c with hook := hook } x)) :=
        mirror.put present present' (twin.update rfl rfl rfl)
      rw [present']
      dsimp only
      split
      · exact ⟨pushed _, rfl⟩
      · cases found : c.operators.lookup? token with
        | some op =>
            dsimp only
            split
            · exact ⟨mirror, rfl⟩
            · exact callOperator_matched inner mirror present present' twin
                (twin.operators op (Registry.mem_of_lookup? found).1)
        | none =>
            dsimp only
            split
            · exact ⟨mirror, rfl⟩
            · split
              · exact ⟨pushed _, rfl⟩
              · split
                · exact ⟨mirror, rfl⟩
                · exact ⟨pushed _, rfl⟩

end

include exchange inner mirror

theorem callHook_mirror {id : Nat} {c : Context} (present : w.get? id = some c)
    (isOpen : c.closed = false) (busy : c.busy = true) (token : String) :
    Mirror left right (callHook (evaluateAt n) id token w) (callHook (evaluateAt n) id token v) := by
  rcases mirror.get? present with ⟨hook, present', twin⟩
  rcases twin.watched isOpen with ⟨watcher, watcher'⟩
  rcases exchange id with ⟨same, leaves⟩ | ⟨observes, observes'⟩
  · -- The hooks are the same, and so is what they do.
    unfold callHook
    rw [present, present']
    dsimp only
    rw [watcher, watcher', ← same]
    cases assigned : left id with
    | none => exact mirror
    | some hook =>
        rw [assigned, Option.all_some] at leaves
        cases hook with
        | trace => exact mirror.note _ _
        | script label body => exact runScript_mirror inner (mirror.note _ _) id leaves
  · rw [← watcher] at observes
    rw [← watcher'] at observes'
    rcases callHook_of_observes n present isOpen busy token observes with ⟨notes, looked⟩
    rcases callHook_of_observes n present' isOpen busy token observes' with ⟨notes', looked'⟩
    rw [looked, looked']
    exact mirror.journals notes notes'

theorem stepToken_matched {id : Nat} {c : Context} {last : String}
    (present : w.get? id = some c) (underway : c.record = .underway last) (strict : Bool)
    (token : String) :
    Matched left right (stepToken (evaluateAt n) id strict token w)
      (stepToken (evaluateAt n) id strict token v) := by
  have looked : Mirror left right (w.modify id (Context.look token))
      (v.modify id (Context.look token)) :=
    mirror.modify (fun _ _ => rfl) (fun _ => rfl) (fun _ => rfl)
  have present₁ := World.get?_modify_self present (Context.look token)
  have record := Context.record_look underway token
  have hooked := callHook_mirror exchange inner looked present₁ (congrArg Record.closed record)
    (congrArg Record.busy record) token
  exact handleToken_matched inner hooked id strict token

/-- A run of tokens, from a moment of an evaluation on. -/
theorem runTokens_matched {id : Nat} {c : Context} {last : String}
    (present : w.get? id = some c) (underway : c.record = .underway last) (strict : Bool)
    (position : Nat) (tokens : List String) :
    Matched left right (runTokens (evaluateAt n) id strict position tokens w)
      (runTokens (evaluateAt n) id strict position tokens v) := by
  induction tokens generalizing w v c last position with
  | nil => exact ⟨mirror, rfl⟩
  | cons token rest ih =>
      have step := stepToken_matched exchange inner mirror present underway strict token
      rcases @stepToken_underway _ id strict (evaluateAt_keeps n) _ _ _ present underway token with
        ⟨c₁, present₁, underway₁⟩
      rw [runTokens_cons, runTokens_cons]
      generalize stepToken (evaluateAt n) id strict token w = one at step present₁
      generalize stepToken (evaluateAt n) id strict token v = other at step
      rcases one with ⟨w₁, outcome⟩
      rcases other with ⟨v₁, outcome'⟩
      rcases step with ⟨mirror₁, rfl⟩
      cases outcome with
      | proceed => exact ih mirror₁ present₁ underway₁ (position + 1)
      | halt => exact ⟨mirror₁.modify (fun _ _ => rfl) (fun _ => rfl) (fun _ => rfl), rfl⟩
      | fail reason => exact ⟨mirror₁.modify (fun _ _ => rfl) (fun _ => rfl) (fun _ => rfl), rfl⟩

end Parts

section Levels

variable {left right : Nat → Option Hook}

theorem evaluateAt_succ_matches (exchange : ∀ j, Exchangeable j (left j) (right j)) {n : Nat}
    (inner : (evaluateAt n).Matches left right) : (evaluateAt (n + 1)).Matches left right := by
  intro w v mirror id input strict
  show Matched left right (evaluateWith (evaluateAt n) w id input strict)
    (evaluateWith (evaluateAt n) v id input strict)
  unfold evaluateWith
  cases present : w.get? id with
  | none =>
      rw [mirror.get?_none present]
      exact ⟨mirror, rfl⟩
  | some c =>
      rcases mirror.get? present with ⟨hook, present', twin⟩
      rw [present']
      dsimp only
      split
      · exact ⟨mirror, rfl⟩
      · rename_i isOpen
        split
        · exact ⟨mirror, rfl⟩
        · have started : Mirror left right (w.put id c.start)
              (v.put id (Context.start { c with hook := hook })) :=
            mirror.put present present' (twin.update rfl rfl rfl)
          have run := runTokens_matched exchange inner started (World.get?_put_self present)
            (c.record_start (Bool.eq_false_iff.mpr isOpen)) strict 0 (Token.tokenize input)
          exact ⟨run.worlds.modify (fun _ _ => rfl) (fun _ => rfl) (fun _ => rfl), run.answer⟩

theorem refuseEvaluation_matches : Evaluator.Matches refuseEvaluation left right := by
  intro w v mirror id input strict
  unfold refuseEvaluation
  cases present : w.get? id with
  | none =>
      rw [mirror.get?_none present]
      exact ⟨mirror, rfl⟩
  | some c =>
      rcases mirror.get? present with ⟨hook, present', twin⟩
      rw [present']
      dsimp only
      split <;> exact ⟨mirror, rfl⟩

/-- Evaluations give the same answers in worlds that differ in hooks which can take the place of
each other, and leave such worlds behind. -/
theorem evaluateAt_matches (exchange : ∀ j, Exchangeable j (left j) (right j)) (n : Nat) :
    (evaluateAt n).Matches left right := by
  induction n with
  | zero => exact refuseEvaluation_matches
  | succ n ih => exact evaluateAt_succ_matches exchange ih

end Levels

end ReversePolish
