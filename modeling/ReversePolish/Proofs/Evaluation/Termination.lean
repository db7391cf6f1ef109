import Mathlib.Data.List.Perm.Subperm
import ReversePolish.Proofs.Evaluation.Busy

/-!
Every evaluation ends, however callbacks call each other.

Callbacks may evaluate on any context, register operators that evaluate again, and set hooks that do
so; nothing in their texts decreases. What does is the set of free contexts: an evaluation takes one
away as long as it lasts, and a context that is taken refuses. `reach_call` says that a call is
answered for this reason. Here the evaluations on the call stack are brought to their ends one after
the other, the innermost first, and then the calls that are still to be made; as there is only one
run from each moment, it is finite.

The moments in question are those at which every callback belongs to a token (`Conf.Sound`). The
call stack is never higher than the number of contexts, because the evaluations on it are on
distinct ones.
-/

namespace ReversePolish

/-- There is no infinite run from a moment. -/
def Conf.Finite (conf : Conf) : Prop :=
  Acc (fun next now => Moves now next) conf

/-- A moment from which there is a run to one where nothing happens any more. -/
theorem Conf.finite_of_reach {conf last : Conf} (reached : Reach conf last)
    (done : ∀ next, ¬ Moves last next) : conf.Finite := by
  induction reached using Relation.ReflTransGen.head_induction_on with
  | refl => exact ⟨_, fun next step => absurd step (done next)⟩
  | head step _ ih => exact ⟨_, fun next other => step.unique other ▸ ih⟩

theorem not_moves_of_done (w : World) (history : List Answer) (next : Conf) :
    ¬ Moves ⟨w, [], [], history⟩ next := by
  intro step
  cases step with
  | answer issued => cases issued
  | enter issued => cases issued

/-! ## Callbacks belong to tokens -/

/-- An evaluation is between two tokens, or one is at hand. -/
def Frame.Sound (f : Frame) : Prop :=
  f.phase = .next ∨ f.tokens ≠ []

/-- The evaluations on the call stack of a moment are sound. -/
def Conf.Sound (conf : Conf) : Prop :=
  ∀ f ∈ conf.frames, f.Sound

theorem Frame.Sound.withSteps {f : Frame} (sound : f.Sound) (steps : List Step) :
    (f.withSteps steps).Sound := by
  rcases sound with next | token
  · left
    rw [Frame.withSteps, next]
    rfl
  · exact .inr token

namespace Conf.Sound

variable {conf conf₁ : Conf}

theorem answered (sound : conf.Sound) (w : World) (a : Answer) : (conf.answered w a).Sound := by
  obtain ⟨w₁, frames, todo, history⟩ := conf
  cases frames with
  | nil => exact sound
  | cons f fs =>
      obtain ⟨first, below⟩ := List.forall_mem_cons.mp sound
      exact List.forall_mem_cons.mpr ⟨first.withSteps _, below⟩

theorem moves (sound : conf.Sound) (step : Moves conf conf₁) : conf₁.Sound := by
  have above {f : Frame} {fs : List Frame} {g : Frame} (all : ∀ h ∈ f :: fs, h.Sound)
      (first : g.Sound) : ∀ h ∈ g :: fs, h.Sound :=
    List.forall_mem_cons.mpr ⟨first, (List.forall_mem_cons.mp all).2⟩
  have below {w : World} {f : Frame} {fs : List Frame} {todo : List (Nat × Call)}
      {history : List Answer} (all : ∀ h ∈ f :: fs, h.Sound) :
      Conf.Sound ⟨w, fs, todo, history⟩ := (List.forall_mem_cons.mp all).2
  cases step with
  | answer => exact sound.answered _ _
  | enter => exact List.forall_mem_cons.mpr ⟨.inl rfl, sound⟩
  | look => exact above sound (.inr (List.cons_ne_nil _ _))
  | handle => exact above sound (.inr (List.cons_ne_nil _ _))
  | proceed => exact above sound (.inl rfl)
  | through => exact (below sound).answered _ _
  | halt => exact (below sound).answered _ _
  | fail => exact (below sound).answered _ _

theorem of_reach {start : Conf} (sound : start.Sound) (reached : Reach start conf) :
    conf.Sound := by
  induction reached with
  | refl => exact sound
  | tail _ step ih => exact ih.moves step

end Conf.Sound

/-! ## Evaluations on the call stack come to their ends -/

/-- The innermost evaluation, on a call stack with `fs` below it, is answered. -/
def Returns (conf : Conf) (fs : List Frame) (todo : List (Nat × Call)) : Prop :=
  ∃ w w₁ history a, Reach conf (Conf.answered ⟨w, fs, todo, history⟩ w₁ a)

theorem Returns.of_reach {conf conf₁ : Conf} {fs : List Frame} {todo : List (Nat × Call)}
    (reached : Reach conf conf₁) (returns : Returns conf₁ fs todo) : Returns conf fs todo := by
  obtain ⟨w, w₁, history, a, run⟩ := returns
  exact ⟨w, w₁, history, a, reached.trans run⟩

section Frames

variable (id : Nat) (input : String) (strict : Bool) (position : Nat) (fs : List Frame)
  (todo : List (Nat × Call))

theorem returns_next (tokens : List String) (w : World) (history : List Answer) :
    Returns ⟨w, ⟨id, input, strict, position, tokens, .next⟩ :: fs, todo, history⟩ fs todo := by
  obtain ⟨answers, run⟩ := reach_tokens (calls_reach _) id input strict fs todo tokens position
    history w (World.card_free_le w)
  exact ⟨_, _, _, _, run⟩

variable (token : String) (rest : List String)

theorem returns_operator (steps : List Step) (outcome : Outcome) (w : World)
    (history : List Answer) :
    Returns ⟨w, ⟨id, input, strict, position, token :: rest, .operator steps outcome⟩ :: fs, todo,
      history⟩ fs todo := by
  obtain ⟨answers, run⟩ := reach_script (calls_reach _)
    (f := ⟨id, input, strict, position, token :: rest, .operator steps outcome⟩) (by rintro ⟨⟩)
    fs todo history steps w (World.card_free_le w)
  refine Returns.of_reach run ?_
  cases outcome with
  | proceed =>
      exact .of_reach (.single .proceed) (returns_next id input strict (position + 1) fs todo ..)
  | halt => exact ⟨_, _, _, _, .single .halt⟩
  | fail reason => exact ⟨_, _, _, _, .single .fail⟩

theorem returns_hook (steps : List Step) (w : World) (history : List Answer) :
    Returns ⟨w, ⟨id, input, strict, position, token :: rest, .hook steps⟩ :: fs, todo, history⟩ fs
      todo := by
  obtain ⟨answers, run⟩ := reach_script (calls_reach _)
    (f := ⟨id, input, strict, position, token :: rest, .hook steps⟩) (by rintro ⟨⟩)
    fs todo history steps w (World.card_free_le w)
  exact .of_reach (run.tail .handle) (returns_operator ..)

end Frames

/-- The innermost evaluation of a sound moment comes to its end. -/
theorem returns_of_sound {f : Frame} (sound : f.Sound) (w : World) (fs : List Frame)
    (todo : List (Nat × Call)) (history : List Answer) :
    Returns ⟨w, f :: fs, todo, history⟩ fs todo := by
  obtain ⟨id, input, strict, position, tokens, phase⟩ := f
  cases phase with
  | next => exact returns_next ..
  | hook steps =>
      cases tokens with
      | nil => exact absurd sound (by rintro (⟨⟨⟩⟩ | none); exact none rfl)
      | cons token rest => exact returns_hook ..
  | operator steps outcome =>
      cases tokens with
      | nil => exact absurd sound (by rintro (⟨⟨⟩⟩ | none); exact none rfl)
      | cons token rest => exact returns_operator ..

theorem Conf.length_frames_answered (conf : Conf) (w : World) (a : Answer) :
    (conf.answered w a).frames.length = conf.frames.length := by
  unfold Conf.answered
  split <;> simp [*]

/-- The evaluations on the call stack come to their ends one after the other. -/
theorem reach_empty_stack {conf : Conf} (sound : conf.Sound) :
    ∃ w todo history, Reach conf ⟨w, [], todo, history⟩ := by
  induction height : conf.frames.length generalizing conf with
  | zero =>
      obtain ⟨w, frames, todo, history⟩ := conf
      cases List.length_eq_zero_iff.mp height
      exact ⟨w, todo, history, .refl⟩
  | succ n ih =>
      obtain ⟨w, frames, todo, history⟩ := conf
      obtain ⟨f, fs, rfl⟩ := List.exists_cons_of_length_eq_add_one height
      obtain ⟨first, below⟩ := List.forall_mem_cons.mp sound
      obtain ⟨w₁, w₂, history₁, a, run⟩ := returns_of_sound first w fs todo history
      have left : Conf.Sound ⟨w₁, fs, todo, history₁⟩ := below
      obtain ⟨w₃, todo₃, history₃, others⟩ := ih (left.answered w₂ a)
        ((Conf.length_frames_answered ..).trans (Nat.succ.inj height))
      exact ⟨w₃, todo₃, history₃, run.trans others⟩

/-- The calls from outside are answered one after the other. -/
theorem reach_done (w : World) (todo : List (Nat × Call)) (history : List Answer) :
    ∃ w₁ history₁, Reach ⟨w, [], todo, history⟩ ⟨w₁, [], [], history₁⟩ := by
  induction todo generalizing w history with
  | nil => exact ⟨w, history, .refl⟩
  | cons call rest ih =>
      obtain ⟨answers, run⟩ := @reach_call ⟨w, [], call :: rest, history⟩ call.1 call.2 rfl
      obtain ⟨w₁, history₁, others⟩ := ih _ _
      exact ⟨w₁, history₁, run.trans others⟩

/-! ## The height of the call stack -/

theorem Conf.length_contexts_answered (conf : Conf) (w : World) (a : Answer) :
    (conf.answered w a).world.contexts.length = w.contexts.length := by
  unfold Conf.answered
  split <;> rfl

/-- There are as many contexts as ever. -/
theorem Moves.length_contexts {conf conf₁ : Conf} (step : Moves conf conf₁) :
    conf₁.world.contexts.length = conf.world.contexts.length := by
  cases step with
  | @answer _ id call =>
      rw [Conf.length_contexts_answered]
      exact (perform_keeps refuseEvaluation_keeps ..).length
  | enter => exact World.length_modify ..
  | look => exact (hookScript_keeps ..).length.trans (World.length_modify ..)
  | handle => exact (dispatch_keeps ..).length
  | proceed => rfl
  | through => rw [Conf.length_contexts_answered, World.length_modify]
  | halt => rw [Conf.length_contexts_answered, World.length_modify, World.length_modify]
  | fail => rw [Conf.length_contexts_answered, World.length_modify, World.length_modify]

theorem length_contexts_of_reach {start conf : Conf} (reached : Reach start conf) :
    conf.world.contexts.length = start.world.contexts.length := by
  induction reached with
  | refl => rfl
  | tail _ step ih => exact step.length_contexts.trans ih

/-- The evaluations on the call stack are on distinct contexts. -/
theorem Guarded.length_active_le {w : World} {active : List Nat} {history : List Answer}
    (guarded : Guarded w active history) : active.length ≤ w.contexts.length := by
  have inside : active ⊆ List.range w.contexts.length := by
    intro j member
    obtain ⟨c, present, -, -⟩ := guarded.get?_of_mem_active member
    exact List.mem_range.mpr (World.lt_length_of_get? present)
  have few := (guarded.distinct.subperm inside).length_le
  rwa [List.length_range] at few

/-- Whatever new contexts are asked to do, and whatever their callbacks do on whichever of them,
there is no infinite run. It goes on until every call from outside is answered; an evaluation that
is asked for is answered on the way, as `World.call` says; and at no moment are there more
evaluations on the call stack than contexts. -/
theorem evaluation_ends {options : List ContextOptions} {calls : List (Nat × Call)} {conf : Conf}
    (reached : Reach ⟨World.new options, [], calls, []⟩ conf) :
    conf.Finite ∧ (∃ w history, Reach conf ⟨w, [], [], history⟩) ∧
      (∀ {id : Nat} {input : String} {strict : Bool},
        conf.issued? = some (id, .evaluate input strict) →
          ∃ answers, Reach conf
            ((conf.extend answers).answered (conf.world.call id (.evaluate input strict)).1
              ⟨id, .evaluate input strict, (conf.world.call id (.evaluate input strict)).2⟩)) ∧
      conf.active.length ≤ options.length := by
  have sound : conf.Sound :=
    Conf.Sound.of_reach (fun _ member => absurd member List.not_mem_nil) reached
  obtain ⟨w, todo, history, emptied⟩ := reach_empty_stack sound
  obtain ⟨w₁, history₁, done⟩ := reach_done w todo history
  have ended := emptied.trans done
  have height := (Guarded.of_reach reached).length_active_le
  rw [length_contexts_of_reach reached] at height
  refine ⟨Conf.finite_of_reach ended (not_moves_of_done w₁ history₁), ⟨w₁, history₁, ended⟩,
    reach_call, ?_⟩
  simpa [World.new] using height

/-- Contexts whose hooks evaluate on each other. -/
def pingPong : List ContextOptions :=
  [{ hook := some (.script "ping" [.on (some 1) (.evaluate "2" false)]) },
    { hook := some (.script "pong" [.on (some 0) (.evaluate "1" false)]) }]

/-- Both evaluate, and the second hook asks for a third evaluation: there is no room for it. -/
theorem evaluation_ends_pingPong :
    ∃ conf, Reach ⟨World.new pingPong, [], [(0, .evaluate "1" false)], []⟩ conf ∧
      conf.active = [1, 0] ∧ conf.issued? = some (0, .evaluate "1" false) ∧
      conf.Finite ∧ (∃ w history, Reach conf ⟨w, [], [], history⟩) ∧
      (∃ answers, Reach conf
        ((conf.extend answers).answered conf.world ⟨0, .evaluate "1" false, .busy⟩)) ∧
      conf.active.length ≤ pingPong.length := by
  have outer : Token.tokenize "1" = ["1"] := by decide +kernel
  have inner : Token.tokenize "2" = ["2"] := by decide +kernel
  have entered : Reach ⟨World.new pingPong, [], [(0, .evaluate "1" false)], []⟩ _ :=
    .single (.enter rfl rfl)
  rw [outer] at entered
  have nested := (entered.tail .look).tail (.enter rfl rfl)
  rw [inner] at nested
  have reached := nested.tail .look
  obtain ⟨finite, ended, answered, height⟩ := evaluation_ends reached
  exact ⟨_, reached, rfl, rfl, finite, ended, answered rfl, height⟩

end ReversePolish
