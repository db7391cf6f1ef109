import ReversePolish.Proofs.Evaluation.CallStack
import ReversePolish.Proofs.Operator.Library

/-!
No builtin ever runs out of values.

The body of a builtin takes its values off the stack without asking whether they are there, and
`index` chooses among them by a place that it has checked itself. Where a value is missing, or the
place is outside, the body has no effect (`Builtin.run?` is `none`) and the journal has a note of
it. The driver compares the stack with the arity after the hook ran and right before the call, so
nothing can take a value away in between, and the arity is enough (`Builtin.isSome_run?_iff`).

`World.Fed` is the invariant: the journal has no such note. Each piece of a run keeps it.
-/

namespace ReversePolish

/-- No builtin was called on a stack that is too short for it. -/
def World.Fed (w : World) : Prop :=
  ∀ b, Event.underflow b ∉ w.journal

namespace World

variable {w w₁ : World}

theorem Fed.of_journal (fed : w.Fed) (same : w₁.journal = w.journal) : w₁.Fed := by
  unfold Fed
  rw [same]
  exact fed

theorem Fed.note (fed : w.Fed) {e : Event} (other : ∀ b, e ≠ .underflow b) : (w.note e).Fed := by
  intro b member
  rcases List.mem_cons.mp member with new | old
  · exact other b new.symm
  · exact fed b old

theorem new_fed (options : List ContextOptions) : (World.new options).Fed :=
  fun _ => List.not_mem_nil

end World

/-! ## The calls of builtins -/

/-- A moment at which the next move calls a builtin: the hook for its token is through, and the
stack of the context holds as many values as its arity. -/
inductive Conf.Calls : Conf → Nat → Context → Builtin → Prop
  | intro {w : World} {id : Nat} {input : String} {strict : Bool} {position : Nat} {token : String}
      {rest : List String} {fs : List Frame} {todo : List (Nat × Call)} {history : List Answer}
      {c : Context} {b : Builtin} :
    w.get? id = some c → Token.isLiteral token = false →
    c.operators.lookup? token = some (.builtin b) → b.arity ≤ c.stack.length →
    Calls ⟨w, ⟨id, input, strict, position, token :: rest, .hook []⟩ :: fs, todo, history⟩ id c b

theorem dispatch_builtin {w : World} {id : Nat} {c : Context} {token : String} {b : Builtin}
    {effect : Effect} (present : w.get? id = some c) (word : Token.isLiteral token = false)
    (found : c.operators.lookup? token = some (.builtin b))
    (run : b.run? c.settings c.stack = some effect) (strict : Bool) :
    dispatch id strict token w =
      (w.put id { c with stack := effect.stack }, [], effect.outcome) := by
  have enough : ¬ c.stack.length < (Operator.builtin b).arity := by
    apply Nat.not_lt.mpr
    show b.arity ≤ c.stack.length
    rw [← b.isSome_run?_iff c.settings, run]
    rfl
  unfold dispatch callback? handleToken
  simp only [present, word, found, Bool.false_eq_true, if_false]
  rw [if_neg enough, callOperator_builtin run]

/-- A builtin that is called has an effect, and this is what happens next. -/
theorem Conf.Calls.effect {conf : Conf} {id : Nat} {c : Context} {b : Builtin}
    (calls : conf.Calls id c b) :
    ∃ effect, b.run? c.settings c.stack = some effect ∧
      ∀ next, Moves conf next →
        next.world = conf.world.put id { c with stack := effect.stack } := by
  obtain ⟨present, word, found, enough⟩ := calls
  obtain ⟨effect, run⟩ := b.exists_run? c.settings enough
  refine ⟨effect, run, fun next moves => ?_⟩
  rw [moves.unique .handle, dispatch_builtin present word found run]

/-! ## Pieces of a run -/

theorem perform_journal (w : World) (id : Nat) (call : Call) :
    (perform refuseEvaluation w id call).1.journal = w.journal := by
  unfold perform
  cases w.get? id with
  | none => rfl
  | some c =>
      cases call with
      | evaluate input strict => exact congrArg World.journal (refuseEvaluation_world w id ..)
      | hook shared hook => cases shared <;> rfl
      | _ => rfl

theorem dispatch_journal (id : Nat) (strict : Bool) (token : String) (w : World) :
    (dispatch id strict token w).1.journal = w.journal := by
  rcases dispatch_cases id strict token w with same | ⟨c, stack, -, changed⟩
  · rw [same]
  · rw [changed, World.journal_put]

namespace World.Fed

variable {w : World} {conf conf₁ : Conf}

theorem hookScript (fed : w.Fed) (id : Nat) (token : String) :
    (hookScript id token w).1.Fed := by
  unfold ReversePolish.hookScript
  split
  · exact fed
  · split
    · exact fed
    · exact fed.note (by rintro b ⟨⟩)
    · exact fed.note (by rintro b ⟨⟩)

theorem answered (conf : Conf) (fed : w.Fed) (a : Answer) : (conf.answered w a).world.Fed := by
  unfold Conf.answered
  split
  · exact fed
  · exact fed.note (by rintro b ⟨⟩)

theorem of_answered {a : Answer} (fed : (conf.answered w a).world.Fed) : w.Fed := by
  unfold Conf.answered at fed
  split at fed
  · exact fed
  · exact fun b member => fed b (List.mem_cons_of_mem _ member)

theorem moves (fed : conf.world.Fed) (step : Moves conf conf₁) : conf₁.world.Fed := by
  cases step with
  | answer => exact answered conf (fed.of_journal (perform_journal ..)) _
  | enter => exact fed.of_journal (journal_modify ..)
  | @look w id _ _ _ token =>
      have looked : (w.modify id (Context.look token)).Fed :=
        of_journal fed (journal_modify ..)
      exact looked.hookScript id token
  | handle => exact fed.of_journal (dispatch_journal ..)
  | proceed => exact fed
  | through => exact answered _ (fed.of_journal (journal_modify ..)) _
  | halt => exact answered _ (fed.of_journal (by simp)) _
  | fail => exact answered _ (fed.of_journal (by simp)) _

theorem of_reach {start : Conf} (fed : start.world.Fed) (reached : Reach start conf) :
    conf.world.Fed := by
  induction reached with
  | refl => exact fed
  | tail _ step ih => exact ih.moves step

end World.Fed

/-- Whatever new contexts are asked to do, and whatever their callbacks do on whichever of them, a
builtin that is called has an effect, and it never happens that one runs out of values: neither up
to now, nor up to the answer of the call that is made now. -/
theorem no_underflow_of_reach {options : List ContextOptions} {calls : List (Nat × Call)}
    {conf : Conf} (reached : Reach ⟨World.new options, [], calls, []⟩ conf) :
    (∀ {id : Nat} {c : Context} {b : Builtin}, conf.Calls id c b →
      ∃ effect, b.run? c.settings c.stack = some effect ∧
        ∀ next, Moves conf next →
          next.world = conf.world.put id { c with stack := effect.stack }) ∧
      ∀ b : Builtin, .underflow b ∉ conf.world.journal ∧
        ∀ {id : Nat} {call : Call}, conf.issued? = some (id, call) →
          .underflow b ∉ (conf.world.call id call).1.journal := by
  have fed := World.Fed.of_reach (World.new_fed options) reached
  refine ⟨Conf.Calls.effect, fun b => ⟨fed b, fun {id call} issued => ?_⟩⟩
  obtain ⟨answers, run⟩ := reach_call issued
  exact (fed.of_reach run).of_answered b

/-- A context whose hook takes a value off the stack before each token. -/
def robbed : ContextOptions :=
  { hook := some (.script "thief" [.on none .pop]) }

/-- The moment at which such a context calls `drop`: there were two values when the token was looked
at, and one is left. -/
def robbedMoment : Conf where
  world :=
    ⟨[{ Context.new robbed with stack := [1], lastToken := "drop", busy := true }], none,
      [.performed .pop (.value 2), .observed "thief" "drop" 2]⟩
  frames := [⟨0, "drop", false, 0, ["drop"], .hook []⟩]
  todo := [(0, .evaluate "drop" false)]
  history := [⟨0, .pop, .value 2⟩, ⟨0, .push 2, .ok⟩, ⟨0, .push 1, .ok⟩]

theorem no_underflow_of_reach_robbed :
    Reach ⟨World.new [robbed], [], [(0, .push 1), (0, .push 2), (0, .evaluate "drop" false)], []⟩
        robbedMoment ∧
      (∃ c, robbedMoment.Calls 0 c (.word .drop) ∧ c.stack = [1] ∧
        ∃ effect, Builtin.run? c.settings (.word .drop) c.stack = some effect) ∧
      ∀ b, .underflow b ∉ robbedMoment.world.journal := by
  have word : Token.tokenize "drop" = ["drop"] := by decide +kernel
  have entered : Reach
      ⟨World.new [robbed], [], [(0, .push 1), (0, .push 2), (0, .evaluate "drop" false)], []⟩ _ :=
    ((Relation.ReflTransGen.single (.answer rfl rfl)).tail (.answer rfl rfl)).tail (.enter rfl rfl)
  rw [word] at entered
  have answered := (entered.tail .look).tail (.answer rfl rfl)
  have reached : Reach _ robbedMoment := answered
  have calls : robbedMoment.Calls 0 _ (.word .drop) :=
    .intro rfl (by decide) (@Context.lookup?_startingOperators robbed rfl (.word .drop) (by decide))
      (by decide)
  have safe := no_underflow_of_reach reached
  obtain ⟨effect, run, -⟩ := safe.1 calls
  exact ⟨reached, ⟨_, calls, rfl, effect, run⟩, fun b => (safe.2 b).1⟩

end ReversePolish
