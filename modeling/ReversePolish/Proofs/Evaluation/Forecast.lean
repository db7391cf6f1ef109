import ReversePolish.Proofs.Evaluation.Framing
import ReversePolish.Proofs.Evaluation.Verdict
import ReversePolish.Proofs.Operator.Depth

/-!
The depth of the stack can be foretold.

Where all operators are builtins and nobody watches, the depths of the stack along a run can be
computed from the tokens and the depth at the start, without a single value. `forecast` does so: it
follows the depths up to the first token that finds too few values. `evaluate_foretold` says what
the evaluation has to do with it. It is foretold whether the evaluation fails for want of values,
where, and how deep the stack is then, and otherwise how deep the stack is at the end; only a token
that halts, refuses its operands or is unknown may come in between, and it comes before a token for
which values are missing.

The one builtin that is left out is `index`, which takes as many values as the stack says.
-/

namespace ReversePolish

/-! ## Forecasts -/

/-- What can be foretold of tokens: the depth behind the last of them, or the place of the first
that finds too few values, and the depth there. -/
inductive Forecast where
  | through (depth : Nat)
  | short (position depth : Nat)
  deriving DecidableEq, Repr

/-- No token up to a place is short of values. -/
def Forecast.Beyond (position : Nat) (f : Forecast) : Prop :=
  ∀ ⦃place depth : Nat⦄, f = .short place depth → position < place

/-- Follow the depths of a stack over tokens that have effects; `position` is the place of the first
of them. -/
def forecast (effect : String → StackEffect) :
    (position depth : Nat) → List String → Forecast
  | _, depth, [] => .through depth
  | position, depth, token :: rest =>
    if depth < (effect token).takes then .short position depth
    else forecast effect (position + 1) ((effect token).after depth) rest

/-- What a token takes off the stack of a context and leaves there. Literals and variables take
nothing and leave a value; an operator has the effect that is listed for it. A token that a context
does not know takes nothing. -/
def Context.stackEffect (c : Context) (token : String) : StackEffect :=
  if Token.isLiteral token then ⟨0, 1⟩
  else
    match c.operators.lookup? token with
    | some (.builtin b) => b.stackEffect
    | some (.custom _ arity _) => ⟨arity, 0⟩
    | none => if (Token.variableName? token).isSome then ⟨0, 1⟩ else ⟨0, 0⟩

section Forecast

variable {effect : String → StackEffect}

/-- A place that is short of values is not before the first of the tokens. -/
theorem position_le_of_forecast {position depth place left : Nat} {tokens : List String}
    (found : forecast effect position depth tokens = .short place left) : position ≤ place := by
  induction tokens generalizing position depth with
  | nil => cases found
  | cons token rest ih =>
      rw [forecast] at found
      split at found
      · cases found
        exact Nat.le_refl _
      · exact Nat.le_of_succ_le (ih found)

variable {position depth : Nat} {token : String} (enough : (effect token).takes ≤ depth)
  (rest : List String)
include enough

theorem forecast_cons :
    forecast effect position depth (token :: rest) =
      forecast effect (position + 1) ((effect token).after depth) rest := by
  rw [forecast, if_neg (Nat.not_lt.mpr enough)]

/-- A token with values enough is not the one that is short of values. -/
theorem forecast_beyond : (forecast effect position depth (token :: rest)).Beyond position := by
  intro place left found
  rw [forecast_cons enough] at found
  exact position_le_of_forecast found

end Forecast

/-! ## Tokens -/

/-- A token that ends a run behind one that proceeds. -/
theorem StopsAt.cons {evaluate : Evaluator} {id : Nat} {strict : Bool} {tokens : List String}
    {first token : String} {w w₁ : World} {position : Nat} {outcome : Outcome}
    (stops : StopsAt evaluate id strict tokens w₁ position token outcome)
    (stepped : stepToken evaluate id strict first w = (w₁, .proceed)) :
    StopsAt evaluate id strict (first :: tokens) w (position + 1) token outcome where
  here := stops.here
  before := by
    obtain ⟨w₂, through, ends⟩ := stops.before
    refine ⟨w₂, ?_, ends⟩
    rw [List.take_succ_cons, advance, stepped]
    exact through

/-- A token that ends a run is the first of it, if it ends it there. -/
theorem StopsAt.head {evaluate : Evaluator} {id : Nat} {strict : Bool} {token : String}
    {w w₁ : World} {outcome : Outcome}
    (stepped : stepToken evaluate id strict token w = (w₁, outcome)) (rest : List String) :
    StopsAt evaluate id strict (token :: rest) w 0 token outcome := by
  have here : (token :: rest)[0]? = some token := rfl
  have through : advance evaluate id strict ((token :: rest).take 0) w = some w := rfl
  exact stopsAt_of_step here through stepped

namespace Unaided

variable {w : World} {id : Nat} {c : Context} (unaided : Unaided w id c) (evaluate : Evaluator)
include unaided

/-- What becomes of a stack at a token: values are missing and it stays, or there are enough, and it
changes as listed unless the token ends the evaluation. -/
theorem handleToken_depth {token : String} (other : token ≠ Builtin.index.name)
    (stack : List Value) :
    (stack.length < (c.stackEffect token).takes ∧
      handleToken evaluate id false token (w.put id (c.reached token stack)) =
        (w.put id (c.reached token stack), .fail .argumentCount)) ∨
    ((c.stackEffect token).takes ≤ stack.length ∧
      ∃ left outcome,
        handleToken evaluate id false token (w.put id (c.reached token stack)) =
          (w.put id (c.reached token left), outcome) ∧
        (outcome = .proceed ∧ left.length = (c.stackEffect token).after stack.length ∨
          outcome.Interrupts)) := by
  rw [unaided.handleToken_eq, Context.stackEffect]
  cases literal : Token.isLiteral token with
  | true => exact .inr ⟨Nat.zero_le _, _, _, rfl, .inl ⟨rfl, rfl⟩⟩
  | false =>
      simp only [Bool.false_eq_true, if_false]
      cases found : c.operators.lookup? token with
      | some op =>
          obtain ⟨member, named⟩ := Registry.mem_of_lookup? found
          obtain ⟨b, rfl⟩ := unaided.builtins op member
          dsimp only
          by_cases short : stack.length < b.arity
          · exact .inl ⟨short, if_pos short⟩
          · right
            refine ⟨Nat.not_lt.mp short, ?_⟩
            obtain ⟨effect, run⟩ := b.exists_run? c.settings (Nat.not_lt.mp short)
            have apart : b ≠ .index := by
              rintro rfl
              exact other named.symm
            have called : callOperator evaluate id (c.reached token stack) (.builtin b)
                (w.put id (c.reached token stack)) =
                  (w.put id (c.reached token effect.stack), effect.outcome) := by
              rw [callOperator_builtin run, World.put_put]
              rfl
            exact ⟨effect.stack, effect.outcome, (if_neg short).trans called,
              Builtin.run?_depth apart run⟩
      | none =>
          dsimp only
          cases refers : Token.variableName? token with
          | none =>
              exact .inr ⟨Nat.zero_le _, _, _, rfl, .inr .unknownToken⟩
          | some name =>
              right
              refine ⟨Nat.zero_le _, ?_⟩
              dsimp only
              cases c.vars.get? name with
              | some v => exact ⟨_, _, rfl, .inl ⟨rfl, rfl⟩⟩
              | none => exact ⟨_, _, rfl, .inl ⟨rfl, rfl⟩⟩

end Unaided

/-! ## Runs -/

/-- How a run of tokens ends, by what is foretold of it; `position` is the place of the first of the
tokens, and `d` the context that the run leaves. -/
inductive Foretold (evaluate : Evaluator) (id : Nat) (w : World) (tokens : List String)
    (position : Nat) (f : Forecast) (d : Context) : Reply → Prop
  /-- All tokens are handled. -/
  | through : f = .through d.stack.length → d.halted = false →
    Foretold evaluate id w tokens position f d .ok
  /-- A token is short of values, and takes none. -/
  | short {i : Nat} {token : String} : f = .short (position + i) d.stack.length →
    tokens[i]? = some token →
    Foretold evaluate id w tokens position f d (.failed ⟨.argumentCount, token, position + i⟩)
  /-- A token halts the run, before one that is short of values. -/
  | halted {i : Nat} {token : String} : StopsAt evaluate id false tokens w i token .halt →
    d.halted = true → f.Beyond (position + i) → Foretold evaluate id w tokens position f d .ok
  /-- A token refuses its operands or is unknown, before one that is short of values. -/
  | refused {i : Nat} {token : String} {reason : Status} :
    StopsAt evaluate id false tokens w i token (.fail reason) →
    (Outcome.fail reason).Interrupts → f.Beyond (position + i) →
    Foretold evaluate id w tokens position f d (.failed ⟨reason, token, position + i⟩)

theorem Foretold.cons {evaluate : Evaluator} {id : Nat} {w w₁ : World} {first : String}
    {tokens : List String} {position : Nat} {f : Forecast} {d : Context} {reply : Reply}
    (foretold : Foretold evaluate id w₁ tokens (position + 1) f d reply)
    (stepped : stepToken evaluate id false first w = (w₁, .proceed)) :
    Foretold evaluate id w (first :: tokens) position f d reply := by
  have shift (i : Nat) : position + 1 + i = position + (i + 1) := by omega
  cases foretold with
  | through depth running => exact .through depth running
  | @short i token depth here =>
      rw [shift] at depth ⊢
      exact .short depth here
  | halted stops ended beyond =>
      rw [shift] at beyond
      exact .halted (stops.cons stepped) ended beyond
  | refused stops interrupts beyond =>
      rw [shift] at beyond ⊢
      exact .refused (stops.cons stepped) interrupts beyond

theorem failureReason_of_interrupts {reason : Status}
    (interrupts : (Outcome.fail reason).Interrupts) : failureReason reason = reason := by
  cases interrupts <;> rfl

namespace Unaided

variable {w : World} {id : Nat} {c : Context} (unaided : Unaided w id c) (evaluate : Evaluator)
include unaided

theorem runTokens_foretold (running : c.halted = false) {tokens : List String}
    (other : Builtin.index.name ∉ tokens) (position : Nat) (last : String) (stack : List Value) :
    ∃ d reply,
      runTokens evaluate id false position tokens (w.put id (c.reached last stack)) =
        (w.put id d, reply) ∧
      Foretold evaluate id (w.put id (c.reached last stack)) tokens position
        (forecast c.stackEffect position stack.length tokens) d reply := by
  induction tokens generalizing position last stack with
  | nil => exact ⟨c.reached last stack, .ok, rfl, .through rfl running⟩
  | cons token rest ih =>
      rw [List.mem_cons, not_or] at other
      have step := unaided.stepToken_eq evaluate false token last stack
      rw [runTokens_cons, step]
      rcases unaided.handleToken_depth evaluate (Ne.symm other.1) stack with
        ⟨short, handled⟩ | ⟨enough, left, outcome, handled, ⟨rfl, depth⟩ | interrupts⟩
      · refine ⟨{ c.reached token stack with status := .argumentCount },
          .failed ⟨.argumentCount, token, position⟩, ?_, ?_⟩
        · rw [handled]
          exact congrArg (·, Reply.failed _) (World.modify_put unaided.present _)
        · exact .short (i := 0) (if_pos short) rfl
      · rw [handled] at step ⊢
        obtain ⟨d, reply, run, foretold⟩ := ih other.2 (position + 1) token left
        rw [depth, ← forecast_cons enough] at foretold
        exact ⟨d, reply, run, foretold.cons step⟩
      · rw [handled] at step ⊢
        have stops := StopsAt.head step rest
        have beyond : (forecast _ position _ (token :: rest)).Beyond position :=
          forecast_beyond enough rest
        cases outcome with
        | proceed => cases interrupts
        | halt =>
            exact ⟨{ c.reached token left with halted := true }, .ok,
              congrArg (·, Reply.ok) (World.modify_put unaided.present _),
              .halted stops rfl beyond⟩
        | fail reason =>
            have same := failureReason_of_interrupts interrupts
            refine ⟨{ c.reached token left with status := reason },
              .failed ⟨reason, token, position⟩, ?_, .refused stops interrupts beyond⟩
            dsimp only
            rw [same]
            exact congrArg (·, Reply.failed _) (World.modify_put unaided.present _)

end Unaided

/-- The evaluation of an expression without `index` ends as foretold from the depth of the stack at
its start: with the depth that is foretold, or for want of values at the token and with the depth
that are foretold, unless a token before that one halts it, refuses its operands or is unknown. -/
theorem evaluate_foretold {w : World} {id : Nat} {c : Context} (unaided : Unaided w id c)
    (isOpen : c.closed = false) (idle : c.busy = false) {input : String}
    (other : Builtin.index.name ∉ Token.tokenize input) :
    ∃ d reply, w.evaluate id input false = (w.put id d, reply) ∧
      Foretold (evaluateAt (w.contexts.length - 1)) id (w.modify id Context.start)
        (Token.tokenize input) 0
        (forecast c.stackEffect 0 c.stack.length (Token.tokenize input)) d reply := by
  have begun : (w.put id c.start).put id (c.start.reached c.start.lastToken c.start.stack) =
      w.modify id Context.start := by
    rw [World.put_put, World.modify_eq_put unaided.present]
    rfl
  obtain ⟨d, reply, run, foretold⟩ := unaided.start.runTokens_foretold
    (evaluateAt (w.contexts.length - 1)) rfl other 0 c.start.lastToken c.start.stack
  rw [begun] at run foretold
  refine ⟨d.release, reply, ?_, ?_⟩
  · rw [evaluate_eq_finish_modify unaided.present isOpen idle, run, unaided.finish_put]
  · cases foretold with
    | through depth running => exact .through depth running
    | short depth here => exact .short depth here
    | halted stops ended beyond => exact .halted stops ended beyond
    | refused stops interrupts beyond => exact .refused stops interrupts beyond

/-- A context with two words of the stack. -/
def shuffler : Context :=
  { Context.new { builtins := false } with
    operators :=
      (Registry.empty .shadow).insertAll [.builtin (.word .dup), .builtin (.word .rot)] }

theorem shuffler_lookup? :
    shuffler.operators.lookup? "$x" = none ∧
      shuffler.operators.lookup? "dup" = some (.builtin (.word .dup)) ∧
      shuffler.operators.lookup? "rot" = some (.builtin (.word .rot)) := by
  have indexed : shuffler.operators.Indexed := (Registry.empty_indexed .shadow).insertAll _
  have names : shuffler.operators.names = ["dup", "rot"] := rfl
  have distinct : shuffler.operators.names.Nodup := by
    rw [names]
    decide
  refine ⟨indexed.lookup?_eq_none ?_, ?_, ?_⟩
  · rw [names]
    decide
  · exact @Registry.Indexed.lookup?_of_mem _ _ indexed distinct (.builtin (.word .dup))
      List.mem_cons_self
  · exact @Registry.Indexed.lookup?_of_mem _ _ indexed distinct (.builtin (.word .rot))
      (List.mem_cons_of_mem _ List.mem_cons_self)

/-- A variable that is not set and its copy are one value too few for `rot`. -/
theorem evaluate_foretold_rot :
    let w : World := ⟨[shuffler], none, []⟩
    Unaided w 0 shuffler ∧
      forecast shuffler.stackEffect 0 0 (Token.tokenize "$x dup rot") = .short 2 2 ∧
      ∃ d, w.evaluate 0 "$x dup rot" false =
          (w.put 0 d, .failed ⟨.argumentCount, "rot", 2⟩) ∧ d.stack.length = 2 := by
  intro w
  have unaided : Unaided w 0 shuffler := by
    refine ⟨rfl, rfl, rfl, fun op member => ?_⟩
    have entries : shuffler.operators.entries =
        [.builtin (.word .dup), .builtin (.word .rot)] := rfl
    rw [entries] at member
    rcases List.mem_pair.mp member with rfl | rfl
    · exact ⟨_, rfl⟩
    · exact ⟨_, rfl⟩
  have words : Token.tokenize "$x dup rot" = ["$x", "dup", "rot"] := by decide +kernel
  obtain ⟨unlisted, dup, rot⟩ := shuffler_lookup?
  have foretells :
      forecast shuffler.stackEffect 0 0 (Token.tokenize "$x dup rot") = .short 2 2 := by
    rw [words]
    simp only [forecast, Context.stackEffect, unlisted, dup, rot]
    rfl
  have failed : (w.evaluate 0 "$x dup rot" false).2 = .failed ⟨.argumentCount, "rot", 2⟩ := by
    let there (token : String) (stack : List Value) : World :=
      (w.put 0 shuffler.start).put 0 (shuffler.start.reached token stack)
    have started : shuffler.start.operators = shuffler.operators := rfl
    have pushed : handleToken (evaluateAt 0) 0 false "$x" (there "$x" []) =
        (there "$x" [0], .proceed) := by
      rw [unaided.start.handleToken_eq, if_neg (by decide), started, unlisted]
      rfl
    have copied : handleToken (evaluateAt 0) 0 false "dup" (there "dup" [0]) =
        (there "dup" [0, 0], .proceed) := by
      rw [unaided.start.handleToken_eq, if_neg (by decide), started, dup]
      rfl
    have starved : handleToken (evaluateAt 0) 0 false "rot" (there "rot" [0, 0]) =
        (there "rot" [0, 0], .fail .argumentCount) := by
      rw [unaided.start.handleToken_eq, if_neg (by decide), started, rot]
      rfl
    show (evaluateAt 1 (w.put 0 { shuffler with stack := [] }) 0 "$x dup rot" false).2 = _
    rw [unaided.evaluateAt_eq_finish false rfl rfl, words, runTokens_cons,
      unaided.start.stepToken_eq, pushed]
    dsimp only
    rw [runTokens_cons, unaided.start.stepToken_eq, copied]
    dsimp only
    rw [runTokens_cons, unaided.start.stepToken_eq, starved]
    rfl
  have other : Builtin.index.name ∉ Token.tokenize "$x dup rot" := by
    rw [words]
    decide
  obtain ⟨d, reply, run, foretold⟩ := evaluate_foretold unaided rfl rfl other
  rw [run] at failed
  have depth : d.stack.length = 2 := by
    cases foretold with
    | through depth running => cases failed
    | short depth here => exact (Forecast.short.inj (depth.symm.trans foretells)).2
    | halted stops ended beyond => cases failed
    | refused stops interrupts beyond =>
        have reason := (Fault.mk.inj (Reply.failed.inj failed)).1
        rw [reason] at interrupts
        cases interrupts
  exact ⟨unaided, foretells, d, run.trans (congrArg (w.put 0 d, ·) failed), depth⟩

end ReversePolish
