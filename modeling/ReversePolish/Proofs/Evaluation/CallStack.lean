import Mathlib.Logic.Relation
import ReversePolish.Proofs.Evaluation.Idle
import ReversePolish.Proofs.Operator.Effect

/-!
Moments of a run: evaluations with an explicit call stack.

`World.call` relates a call to the *outcome* of all that happens in it; no statement about it can
name a moment in between. This module is the same run taken apart. A configuration `Conf` is a
world, the evaluations on the call stack (innermost first), the calls that are still to be made from
outside, and the history of the calls that were answered. `Moves` is what happens next, in pieces
that contain no callback, and `Reach` is its reflexive and transitive closure.

`reach_call` places the outcome of every call at the end of such a run: from a configuration that
makes a call, the run reaches the one in which the call was answered, with the world and the reply
of `World.call`. The pieces ask for no bound on nested evaluations, so this says in particular that
the bound in `World.evaluate` is never felt.
-/

namespace ReversePolish

/-! ## Callbacks apart from what they run -/

/-- The world in which the hook for a token starts its script, and the script. -/
def hookScript (id : Nat) (token : String) (w : World) : World × List Step :=
  match w.get? id with
  | none => (w, [])
  | some c =>
    match c.hook <|> w.sharedHook with
    | none => (w, [])
    | some .trace => (w.note (.traced token c.stack.length), [])
    | some (.script label body) => (w.note (.observed label token c.stack.length), body)

theorem callHook_eq_runScript (evaluate : Evaluator) (id : Nat) (token : String) (w : World) :
    callHook evaluate id token w =
      runScript evaluate id (hookScript id token w).2 (hookScript id token w).1 := by
  unfold callHook hookScript
  cases w.get? id with
  | none => rfl
  | some c =>
      dsimp only
      cases c.hook <|> w.sharedHook with
      | none => rfl
      | some hook => cases hook <;> rfl

/-- The callback that a token calls, if it is the name of a registered operator for which the stack
holds enough values. -/
def callback? (id : Nat) (token : String) (w : World) : Option Callback :=
  match w.get? id with
  | none => none
  | some c =>
    if Token.isLiteral token then none
    else
      match c.operators.lookup? token with
      | some (.custom _ arity callback) => if c.stack.length < arity then none else some callback
      | _ => none

/-- What handling a token does before a script runs, the script, and the outcome. -/
def dispatch (id : Nat) (strict : Bool) (token : String) (w : World) :
    World × List Step × Outcome :=
  match callback? id token w with
  | some callback => (w, callback.body, callback.outcome)
  | none =>
    ((handleToken refuseEvaluation id strict token w).1, [],
      (handleToken refuseEvaluation id strict token w).2)

theorem handleToken_eq_runScript (evaluate : Evaluator) (id : Nat) (strict : Bool)
    (token : String) (w : World) :
    handleToken evaluate id strict token w =
      (runScript evaluate id (dispatch id strict token w).2.1 (dispatch id strict token w).1,
        (dispatch id strict token w).2.2) := by
  unfold dispatch callback? handleToken
  cases present : w.get? id with
  | none => rfl
  | some c =>
      dsimp only
      cases Token.isLiteral token with
      | true => rfl
      | false =>
          cases found : c.operators.lookup? token with
          | none => rfl
          | some op =>
              cases op with
              | builtin b => rfl
              | custom name arity callback =>
                  simp only [Bool.false_eq_true, if_false]
                  by_cases short : c.stack.length < arity
                  · rw [if_pos short, if_pos (show _ < Operator.arity _ from short),
                      if_pos (show _ < Operator.arity _ from short)]
                    rfl
                  · rw [if_neg short, if_neg (show ¬ _ < Operator.arity _ from short)]
                    rfl

theorem hookScript_keeps (id : Nat) (token : String) (w : World) :
    w.Keeps (hookScript id token w).1 := by
  unfold hookScript
  split
  · exact .refl w
  · split
    · exact .refl w
    · exact World.keeps_note w _
    · exact World.keeps_note w _

/-- Apart from scripts, a token changes at most the stack of its context: a builtin is called only
where it has an effect. -/
theorem dispatch_cases (id : Nat) (strict : Bool) (token : String) (w : World) :
    (dispatch id strict token w).1 = w ∨
      ∃ c stack, w.get? id = some c ∧
        (dispatch id strict token w).1 = w.put id { c with stack := stack } := by
  unfold dispatch callback? handleToken
  cases present : w.get? id with
  | none => exact .inl rfl
  | some c =>
      have pushed (v : Value) :
          ∃ d stack, some c = some d ∧ w.put id (c.push v) = w.put id { d with stack := stack } :=
        ⟨c, v :: c.stack, rfl, rfl⟩
      dsimp only
      cases Token.isLiteral token with
      | true => exact .inr (pushed _)
      | false =>
          simp only [Bool.false_eq_true, if_false]
          cases found : c.operators.lookup? token with
          | none =>
              dsimp only
              split
              · exact .inl rfl
              · split
                · exact .inr (pushed _)
                · split
                  · exact .inl rfl
                  · exact .inr (pushed _)
          | some op =>
              cases op with
              | builtin b =>
                  dsimp only
                  split
                  · exact .inl rfl
                  · rename_i enough
                    obtain ⟨effect, run⟩ := b.exists_run? c.settings (Nat.not_lt.mp enough)
                    rw [callOperator_builtin run]
                    exact .inr ⟨c, _, rfl, rfl⟩
              | custom name arity callback =>
                  dsimp only
                  by_cases short : c.stack.length < arity
                  · rw [if_pos short, if_pos (show _ < Operator.arity _ from short)]
                    exact .inl rfl
                  · rw [if_neg short]
                    exact .inl rfl

theorem dispatch_keeps (id : Nat) (strict : Bool) (token : String) (w : World) :
    w.Keeps (dispatch id strict token w).1 := by
  rcases dispatch_cases id strict token w with same | ⟨c, stack, present, changed⟩
  · rw [same]
    exact .refl w
  · rw [changed]
    exact World.keeps_put present (fun _ => rfl)

/-! ## Configurations -/

/-- What an evaluation is doing. -/
inductive Phase where
  /-- It is between two tokens. -/
  | next
  /-- The hook runs; these steps are left, and then the token is handled. -/
  | hook (steps : List Step)
  /-- An operator runs; these steps are left, and then it reports its outcome. -/
  | operator (steps : List Step) (outcome : Outcome)

/-- The steps of a callback that are still to be performed. -/
def Phase.steps : Phase → List Step
  | .next => []
  | .hook steps => steps
  | .operator steps _ => steps

def Phase.withSteps (steps : List Step) : Phase → Phase
  | .next => .next
  | .hook _ => .hook steps
  | .operator _ outcome => .operator steps outcome

/-- An evaluation on the call stack. -/
structure Frame where
  id : Nat
  input : String
  strict : Bool
  position : Nat
  /-- The tokens from the one at hand on. -/
  tokens : List String
  phase : Phase

/-- The same evaluation with other steps left. -/
def Frame.withSteps (steps : List Step) (f : Frame) : Frame :=
  { f with phase := f.phase.withSteps steps }

/-- A call that was answered. -/
structure Answer where
  id : Nat
  call : Call
  reply : Reply

/-- A moment of a run. -/
structure Conf where
  world : World
  /-- The evaluations on the call stack, innermost first. -/
  frames : List Frame
  /-- The calls from outside that are still to be made. -/
  todo : List (Nat × Call)
  /-- The calls that were answered, last answer first. -/
  history : List Answer

namespace Conf

/-- The contexts with an evaluation on the call stack. -/
def active (conf : Conf) : List Nat :=
  conf.frames.map Frame.id

/-- The call that is made now, if one is: by the callback of the innermost evaluation, or from
outside if there is none. -/
def issued? (conf : Conf) : Option (Nat × Call) :=
  match conf.frames with
  | [] => conf.todo.head?
  | f :: _ =>
    match f.phase.steps with
    | [] => none
    | .on target call :: _ => some (target.getD f.id, call)

/-- The caller goes on with a reply. Callbacks note what they did. -/
def answered (conf : Conf) (w : World) (a : Answer) : Conf :=
  match conf.frames with
  | [] => ⟨w, [], conf.todo.tail, a :: conf.history⟩
  | f :: fs =>
    ⟨w.note (.performed a.call a.reply), f.withSteps f.phase.steps.tail :: fs, conf.todo,
      a :: conf.history⟩

end Conf

/-- Whether a call starts an evaluation: it asks for one, of a context that takes one. -/
def World.admits (w : World) (id : Nat) : Call → Bool
  | .evaluate .. => w.isIdle id
  | _ => false

/-- What happens next. -/
inductive Moves : Conf → Conf → Prop
  /-- A call that starts no evaluation is answered. -/
  | answer {conf : Conf} {id : Nat} {call : Call} :
    conf.issued? = some (id, call) → conf.world.admits id call = false →
    Moves conf (conf.answered (perform refuseEvaluation conf.world id call).1
      ⟨id, call, (perform refuseEvaluation conf.world id call).2⟩)
  /-- A call starts an evaluation. -/
  | enter {conf : Conf} {id : Nat} {input : String} {strict : Bool} :
    conf.issued? = some (id, .evaluate input strict) → conf.world.isIdle id = true →
    Moves conf
      { conf with
        world := conf.world.modify id Context.start
        frames := ⟨id, input, strict, 0, Token.tokenize input, .next⟩ :: conf.frames }
  /-- An evaluation looks at its next token, and calls the hook. -/
  | look {w : World} {id : Nat} {input : String} {strict : Bool} {position : Nat} {token : String}
      {rest : List String} {fs : List Frame} {todo : List (Nat × Call)} {history : List Answer} :
    Moves ⟨w, ⟨id, input, strict, position, token :: rest, .next⟩ :: fs, todo, history⟩
      ⟨(hookScript id token (w.modify id (Context.look token))).1,
        ⟨id, input, strict, position, token :: rest,
          .hook (hookScript id token (w.modify id (Context.look token))).2⟩ :: fs, todo, history⟩
  /-- The hook is through, and the token is handled, up to a script that it calls. -/
  | handle {w : World} {id : Nat} {input : String} {strict : Bool} {position : Nat}
      {token : String} {rest : List String} {fs : List Frame} {todo : List (Nat × Call)}
      {history : List Answer} :
    Moves ⟨w, ⟨id, input, strict, position, token :: rest, .hook []⟩ :: fs, todo, history⟩
      ⟨(dispatch id strict token w).1,
        ⟨id, input, strict, position, token :: rest,
          .operator (dispatch id strict token w).2.1 (dispatch id strict token w).2.2⟩ :: fs,
        todo, history⟩
  /-- The token is through, and the evaluation proceeds. -/
  | proceed {w : World} {id : Nat} {input : String} {strict : Bool} {position : Nat}
      {token : String} {rest : List String} {fs : List Frame} {todo : List (Nat × Call)}
      {history : List Answer} :
    Moves
      ⟨w, ⟨id, input, strict, position, token :: rest, .operator [] .proceed⟩ :: fs, todo, history⟩
      ⟨w, ⟨id, input, strict, position + 1, rest, .next⟩ :: fs, todo, history⟩
  /-- There is no further token. -/
  | through {w : World} {id : Nat} {input : String} {strict : Bool} {position : Nat}
      {fs : List Frame} {todo : List (Nat × Call)} {history : List Answer} :
    Moves ⟨w, ⟨id, input, strict, position, [], .next⟩ :: fs, todo, history⟩
      (Conf.answered ⟨w, fs, todo, history⟩ (w.modify id Context.release)
        ⟨id, .evaluate input strict, .ok⟩)
  /-- An operator halts the evaluation. -/
  | halt {w : World} {id : Nat} {input : String} {strict : Bool} {position : Nat}
      {token : String} {rest : List String} {fs : List Frame} {todo : List (Nat × Call)}
      {history : List Answer} :
    Moves ⟨w, ⟨id, input, strict, position, token :: rest, .operator [] .halt⟩ :: fs, todo, history⟩
      (Conf.answered ⟨w, fs, todo, history⟩
        ((w.modify id (fun c => { c with halted := true })).modify id Context.release)
        ⟨id, .evaluate input strict, .ok⟩)
  /-- The token fails. -/
  | fail {w : World} {id : Nat} {input : String} {strict : Bool} {position : Nat}
      {token : String} {rest : List String} {reason : Status} {fs : List Frame}
      {todo : List (Nat × Call)} {history : List Answer} :
    Moves
      ⟨w, ⟨id, input, strict, position, token :: rest, .operator [] (.fail reason)⟩ :: fs, todo,
        history⟩
      (Conf.answered ⟨w, fs, todo, history⟩
        ((w.modify id (fun c => { c with status := failureReason reason })).modify id
          Context.release)
        ⟨id, .evaluate input strict, .failed ⟨failureReason reason, token, position⟩⟩)

/-- What happens next is determined: there is one run from each moment. -/
theorem Moves.unique {conf left right : Conf} (one : Moves conf left) (other : Moves conf right) :
    left = right := by
  cases one with
  | answer issued direct =>
      cases other with
      | answer issued₁ direct₁ =>
          cases issued.symm.trans issued₁
          rfl
      | enter issued₁ idle =>
          cases issued.symm.trans issued₁
          cases direct.symm.trans idle
      | _ => cases issued
  | enter issued idle =>
      cases other with
      | answer issued₁ direct =>
          cases issued.symm.trans issued₁
          cases direct.symm.trans idle
      | enter issued₁ idle₁ =>
          cases issued.symm.trans issued₁
          rfl
      | _ => cases issued
  | _ =>
      cases other with
      | answer issued₁ direct => cases issued₁
      | enter issued₁ idle => cases issued₁
      | _ => rfl

/-- Moments that a run comes to. -/
abbrev Reach : Conf → Conf → Prop :=
  Relation.ReflTransGen Moves

/-! ## Runs end with the outcome of the call -/

/-- A configuration with answers that were given meanwhile. -/
def Conf.extend (conf : Conf) (answers : List Answer) : Conf :=
  { conf with history := answers ++ conf.history }

/-- The world before an answer does not show in the configuration behind it. -/
theorem Conf.answered_world (w w₁ : World) (fs : List Frame) (todo : List (Nat × Call))
    (history : List Answer) (a : Answer) :
    Conf.answered ⟨w, fs, todo, history⟩ w₁ a = Conf.answered ⟨w₁, fs, todo, history⟩ w₁ a := by
  cases fs <;> rfl

theorem Frame.steps_withSteps {f : Frame} (running : f.phase ≠ .next) (steps : List Step) :
    (f.withSteps steps).phase.steps = steps := by
  unfold Frame.withSteps
  cases phase : f.phase with
  | next => exact absurd phase running
  | hook all => rfl
  | operator all outcome => rfl

theorem Frame.withSteps_withSteps (f : Frame) (first second : List Step) :
    (f.withSteps first).withSteps second = f.withSteps second := by
  unfold Frame.withSteps
  cases f.phase <;> rfl

theorem perform_evaluate (evaluate : Evaluator) {w : World} {id : Nat} {c : Context}
    (present : w.get? id = some c) (input : String) (strict : Bool) :
    perform evaluate w id (.evaluate input strict) = evaluate w id input strict := by
  unfold perform
  rw [present]

theorem perform_of_not_admits {w : World} {id : Nat} {call : Call} (n : Nat)
    (direct : w.admits id call = false) :
    perform (evaluateAt n) w id call = perform refuseEvaluation w id call := by
  unfold perform
  cases call with
  | evaluate input strict =>
      cases w.get? id with
      | none => rfl
      | some c => exact evaluateAt_of_not_idle n direct input strict
  | hook shared hook => cases shared <;> rfl
  | _ => rfl

/-- At this level, every call leads to its answer. The level need not exceed the number of contexts
that are free. -/
def CallsReach (n : Nat) : Prop :=
  ∀ (conf : Conf) (id : Nat) (call : Call), conf.issued? = some (id, call) →
    conf.world.free.card ≤ n →
    ∃ answers, Reach conf ((conf.extend answers).answered
      (perform (evaluateAt n) conf.world id call).1
      ⟨id, call, (perform (evaluateAt n) conf.world id call).2⟩)

section Level

variable {n : Nat} (calls : CallsReach n)
include calls

/-- A script is run to its end. -/
theorem reach_script {f : Frame} (running : f.phase ≠ .next) (fs : List Frame)
    (todo : List (Nat × Call)) (history : List Answer) (steps : List Step) (w : World)
    (enough : w.free.card ≤ n) :
    ∃ answers, Reach ⟨w, f.withSteps steps :: fs, todo, history⟩
      ⟨runScript (evaluateAt n) f.id steps w, f.withSteps [] :: fs, todo, answers ++ history⟩ := by
  induction steps generalizing w history with
  | nil => exact ⟨[], .refl⟩
  | cons step steps ih =>
      obtain ⟨target, call⟩ := step
      have left := Frame.steps_withSteps running (.on target call :: steps)
      have issued : Conf.issued? ⟨w, f.withSteps (.on target call :: steps) :: fs, todo, history⟩ =
          some (target.getD f.id, call) := by
        simp only [Conf.issued?, left]
        rfl
      obtain ⟨inside, first⟩ := calls _ _ _ issued enough
      have kept := (perform_keeps (evaluateAt_keeps n) w (target.getD f.id) call).free_subset
      have enough₁ := (Finset.card_le_card kept).trans enough
      simp only [Conf.answered, Conf.extend, left, List.tail_cons, Frame.withSteps_withSteps]
        at first
      have unfolded : runScript (evaluateAt n) f.id (.on target call :: steps) w =
          runScript (evaluateAt n) f.id steps
            ((perform (evaluateAt n) w (target.getD f.id) call).1.note
              (.performed call (perform (evaluateAt n) w (target.getD f.id) call).2)) := rfl
      rw [unfolded]
      generalize perform (evaluateAt n) w (target.getD f.id) call = result at *
      obtain ⟨w₁, reply⟩ := result
      obtain ⟨behind, others⟩ :=
        ih (⟨target.getD f.id, call, reply⟩ :: (inside ++ history))
          (w₁.note (.performed call reply)) enough₁
      refine ⟨behind ++ ⟨target.getD f.id, call, reply⟩ :: inside, ?_⟩
      rw [List.append_assoc, List.cons_append]
      exact first.trans others

section Token

variable (id : Nat) (input : String) (strict : Bool) (position : Nat) (token : String)
  (rest : List String) (fs : List Frame) (todo : List (Nat × Call)) (history : List Answer)
  (w : World) (enough : w.free.card ≤ n)
include enough

theorem reach_hook :
    ∃ answers, Reach ⟨w, ⟨id, input, strict, position, token :: rest, .next⟩ :: fs, todo, history⟩
      ⟨callHook (evaluateAt n) id token (w.modify id (Context.look token)),
        ⟨id, input, strict, position, token :: rest, .hook []⟩ :: fs, todo,
        answers ++ history⟩ := by
  have kept := (hookScript_keeps id token (w.modify id (Context.look token))).free_subset.trans
    (World.free_look w id token)
  obtain ⟨answers, run⟩ := reach_script calls
    (f := ⟨id, input, strict, position, token :: rest, .hook []⟩) (by rintro ⟨⟩) fs todo history
    (hookScript id token (w.modify id (Context.look token))).2 _
    ((Finset.card_le_card kept).trans enough)
  rw [callHook_eq_runScript]
  exact ⟨answers, .head .look run⟩

theorem reach_operator :
    ∃ answers,
      Reach ⟨w, ⟨id, input, strict, position, token :: rest, .hook []⟩ :: fs, todo, history⟩
        ⟨(handleToken (evaluateAt n) id strict token w).1,
          ⟨id, input, strict, position, token :: rest,
            .operator [] (handleToken (evaluateAt n) id strict token w).2⟩ :: fs, todo,
          answers ++ history⟩ := by
  have kept := (dispatch_keeps id strict token w).free_subset
  obtain ⟨answers, run⟩ := reach_script calls
    (f := ⟨id, input, strict, position, token :: rest,
      .operator [] (dispatch id strict token w).2.2⟩) (by rintro ⟨⟩) fs todo history
    (dispatch id strict token w).2.1 _ ((Finset.card_le_card kept).trans enough)
  rw [handleToken_eq_runScript]
  exact ⟨answers, .head .handle run⟩

/-- A token is handled up to its outcome: its hook runs, and then what it calls. -/
theorem reach_token :
    ∃ answers, Reach ⟨w, ⟨id, input, strict, position, token :: rest, .next⟩ :: fs, todo, history⟩
      ⟨(stepToken (evaluateAt n) id strict token w).1,
        ⟨id, input, strict, position, token :: rest,
          .operator [] (stepToken (evaluateAt n) id strict token w).2⟩ :: fs,
        todo, answers ++ history⟩ := by
  obtain ⟨hooked, hook⟩ :=
    reach_hook calls id input strict position token rest fs todo history w enough
  have kept := (callHook_keeps (evaluateAt_keeps n) id token _).free_subset.trans
    (World.free_look w id token)
  obtain ⟨called, operator⟩ :=
    reach_operator calls id input strict position token rest fs todo (hooked ++ history) _
      ((Finset.card_le_card kept).trans enough)
  refine ⟨called ++ hooked, ?_⟩
  rw [List.append_assoc]
  exact hook.trans operator

end Token

/-- An evaluation is run to its end. -/
theorem reach_tokens (id : Nat) (input : String) (strict : Bool) (fs : List Frame)
    (todo : List (Nat × Call)) (tokens : List String) (position : Nat) (history : List Answer)
    (w : World) (enough : w.free.card ≤ n) :
    ∃ answers, Reach ⟨w, ⟨id, input, strict, position, tokens, .next⟩ :: fs, todo, history⟩
      (Conf.answered ⟨w, fs, todo, answers ++ history⟩
        (finish id (runTokens (evaluateAt n) id strict position tokens w)).1
        ⟨id, .evaluate input strict,
          (finish id (runTokens (evaluateAt n) id strict position tokens w)).2⟩) := by
  induction tokens generalizing position history w with
  | nil => exact ⟨[], .single .through⟩
  | cons token rest ih =>
      obtain ⟨inside, handled⟩ :=
        reach_token calls id input strict position token rest fs todo history w enough
      have kept := World.free_stepToken (evaluateAt_keeps n) id strict token w
      have enough₁ := (Finset.card_le_card kept).trans enough
      rw [runTokens_cons]
      generalize stepToken (evaluateAt n) id strict token w = result at *
      obtain ⟨w₁, outcome⟩ := result
      cases outcome with
      | proceed =>
          obtain ⟨behind, others⟩ := ih (position + 1) (inside ++ history) w₁ enough₁
          refine ⟨behind ++ inside, ?_⟩
          rw [List.append_assoc, Conf.answered_world]
          rw [Conf.answered_world] at others
          exact (handled.tail .proceed).trans others
      | halt =>
          refine ⟨inside, ?_⟩
          rw [Conf.answered_world]
          exact handled.tail (Conf.answered_world w₁ .. ▸ .halt)
      | fail reason =>
          refine ⟨inside, ?_⟩
          rw [Conf.answered_world]
          exact handled.tail (Conf.answered_world w₁ .. ▸ .fail)

end Level

theorem World.admits_cases {w : World} {id : Nat} {call : Call}
    (admitted : w.admits id call = true) :
    ∃ input strict c, call = .evaluate input strict ∧ w.get? id = some c ∧ c.closed = false ∧
      c.busy = false := by
  cases call with
  | evaluate input strict =>
      obtain ⟨c, present, isOpen, idle⟩ := World.isIdle_iff.mp admitted
      exact ⟨input, strict, c, rfl, present, isOpen, idle⟩
  | _ => cases admitted

/-- A call that starts no evaluation is answered in one piece, at every level. -/
theorem reach_of_not_admits {conf : Conf} {id : Nat} {call : Call} (n : Nat)
    (issued : conf.issued? = some (id, call)) (direct : conf.world.admits id call = false) :
    Reach conf (conf.answered (perform (evaluateAt n) conf.world id call).1
      ⟨id, call, (perform (evaluateAt n) conf.world id call).2⟩) := by
  rw [perform_of_not_admits n direct]
  exact .single (.answer issued direct)

/-- A call that starts an evaluation is answered when the evaluation ends. -/
theorem reach_of_idle {conf : Conf} {id : Nat} {input : String} {strict : Bool} {c : Context}
    {n : Nat} (calls : CallsReach n) (issued : conf.issued? = some (id, .evaluate input strict))
    (present : conf.world.get? id = some c) (isOpen : c.closed = false) (idle : c.busy = false)
    (enough : conf.world.free.card ≤ n + 1) :
    ∃ answers, Reach conf ((conf.extend answers).answered
      (perform (evaluateAt (n + 1)) conf.world id (.evaluate input strict)).1
      ⟨id, .evaluate input strict,
        (perform (evaluateAt (n + 1)) conf.world id (.evaluate input strict)).2⟩) := by
  have evaluated : perform (evaluateAt (n + 1)) conf.world id (.evaluate input strict) =
      finish id (runTokens (evaluateAt n) id strict 0 (Token.tokenize input)
        (conf.world.put id c.start)) := by
    rw [perform_evaluate _ present]
    exact evaluateAt_succ_of_idle n present isOpen idle input strict
  have fewer := World.card_free_start present idle
  obtain ⟨answers, run⟩ := reach_tokens calls id input strict conf.frames conf.todo
    (Token.tokenize input) 0 conf.history (conf.world.put id c.start) (by omega)
  have entered := Moves.enter issued (World.isIdle_iff.mpr ⟨c, present, isOpen, idle⟩)
  rw [World.modify_eq_put present] at entered
  refine ⟨answers, ?_⟩
  rw [Conf.answered_world] at run
  rw [evaluated, Conf.extend, Conf.answered_world]
  exact .head entered run

/-- Every call leads to its answer, if the level is no lower than the number of free contexts. -/
theorem calls_reach (n : Nat) : CallsReach n := by
  induction n with
  | zero =>
      intro conf id call issued enough
      cases admitted : conf.world.admits id call with
      | false => exact ⟨[], reach_of_not_admits 0 issued admitted⟩
      | true =>
          -- The context itself is free, so the level cannot be zero.
          obtain ⟨input, strict, c, rfl, present, isOpen, idle⟩ := World.admits_cases admitted
          have fewer := World.card_free_start present idle
          omega
  | succ n ih =>
      intro conf id call issued enough
      cases admitted : conf.world.admits id call with
      | false => exact ⟨[], reach_of_not_admits (n + 1) issued admitted⟩
      | true =>
          obtain ⟨input, strict, c, rfl, present, isOpen, idle⟩ := World.admits_cases admitted
          exact reach_of_idle ih issued present isOpen idle enough

/-- A call that is made at a moment leads to its answer. The world and the reply are those of the
call, and the evaluations below it on the call stack do not show. -/
theorem reach_call {conf : Conf} {id : Nat} {call : Call}
    (issued : conf.issued? = some (id, call)) :
    ∃ answers, Reach conf ((conf.extend answers).answered (conf.world.call id call).1
      ⟨id, call, (conf.world.call id call).2⟩) :=
  calls_reach conf.world.contexts.length conf id call issued (World.card_free_le conf.world)

end ReversePolish
