import Mathlib.Data.Fin.VecNotation
import ReversePolish.Proofs.Evaluation.Idle
import ReversePolish.Proofs.Expression

/-!
Postfix evaluation computes expression trees.

On a context with the usual operators and no hook, the tokens of an expression do nothing but push
its value, or stop where it has none. The statements are about a run in which other tokens follow
and whatever is on the stack stays below (`Expr.Runs`), so that they carry over from the operands of
a node to the node itself.
-/

namespace ReversePolish

/-- A context whose evaluation is at a token, with a stack. -/
def Context.reached (token : String) (stack : List Value) (c : Context) : Context :=
  { c with lastToken := token, stack := stack }

/-- What an expression needs to be evaluated as such: the usual operators, and nobody watching. -/
structure Plain (w : World) (id : Nat) (c : Context) : Prop where
  present : w.get? id = some c
  unwatched : c.hook = none
  unshared : w.sharedHook = none
  operators : c.operators = Context.startingOperators {}

/-! ## Tokens -/

/-- On a stack that ends with its operands, a function replaces them by its result. -/
theorem Builtin.runFunction_append (el : Elementary) (f : Function) (values : Fin f.arity → Value)
    (stack : List Value) :
    Builtin.runFunction el f ((List.ofFn values).reverse ++ stack) =
      match f.denote el values with
      | .ok v => some ⟨v :: stack, .proceed⟩
      | .error reason => some ⟨stack, .fail reason⟩ := by
  have length : (List.ofFn values).reverse.length = f.arity := by
    rw [List.length_reverse, List.length_ofFn]
  unfold Builtin.runFunction
  rw [List.take_left' length, List.drop_left' length, List.reverse_reverse, Function.result?_ofFn]
  cases f.denote el values <;> rfl

theorem callOperator_function {evaluate : Evaluator} {w : World} {id : Nat} {d : Context}
    {f : Function} {values : Fin f.arity → Value} {stack : List Value}
    (operands : d.stack = (List.ofFn values).reverse ++ stack) :
    callOperator evaluate id d (.builtin (.function f)) w =
      match f.denote d.settings.elementary values with
      | .ok v => (w.put id { d with stack := v :: stack }, .proceed)
      | .error reason => (w.put id { d with stack := stack }, .fail reason) := by
  unfold callOperator Builtin.run?
  dsimp only
  rw [operands, Builtin.runFunction_append]
  cases f.denote d.settings.elementary values <;> rfl

namespace Plain

variable {w : World} {id : Nat} {c : Context} (plain : Plain w id c)
include plain

theorem get?_put (token : String) (stack : List Value) :
    (w.put id (c.reached token stack)).get? id = some (c.reached token stack) :=
  World.get?_put_self plain.present

theorem stepToken_eq (evaluate : Evaluator) (strict : Bool) (token last : String)
    (stack : List Value) :
    stepToken evaluate id strict token (w.put id (c.reached last stack)) =
      handleToken evaluate id strict token (w.put id (c.reached token stack)) := by
  rw [stepToken_of_unwatched evaluate (plain.get?_put last stack) plain.unwatched plain.unshared,
    World.put_put]
  rfl

theorem handleToken_literal (evaluate : Evaluator) (strict : Bool) {token : String}
    (literal : Token.isLiteral token = true) (stack : List Value) :
    handleToken evaluate id strict token (w.put id (c.reached token stack)) =
      (w.put id (c.reached token (Token.literalValue token :: stack)), .proceed) := by
  unfold handleToken
  rw [plain.get?_put]
  dsimp only
  rw [if_pos literal, World.put_put]
  rfl

theorem lookup?_reference (name : String) : c.operators.lookup? (Token.reference name) = none := by
  rw [plain.operators]
  exact Context.lookup?_reference rfl name

/-- A variable that is not set counts as zero. -/
theorem handleToken_reference (evaluate : Evaluator) {name : String} (word : Text.IsWord name)
    (stack : List Value) :
    handleToken evaluate id false (Token.reference name)
        (w.put id (c.reached (Token.reference name) stack)) =
      (w.put id (c.reached (Token.reference name) ((c.vars.get? name).getD 0 :: stack)),
        .proceed) := by
  have vars : (c.reached (Token.reference name) stack).vars = c.vars := rfl
  rw [handleToken_of_reference (plain.get?_put (Token.reference name) stack)
    (Token.isLiteral_reference name) (plain.lookup?_reference name)
    (Token.variableName?_reference word), vars]
  cases c.vars.get? name with
  | none => exact congrArg (·, Outcome.proceed) (World.put_put ..)
  | some v => exact congrArg (·, Outcome.proceed) (World.put_put ..)

theorem lookup?_function (f : Function) :
    c.operators.lookup? (Builtin.functionName f) = some (.builtin (.function f)) := by
  rw [plain.operators]
  show (Context.startingOperators {}).lookup? (Builtin.function f).name = _
  exact @Context.lookup?_startingOperators {} rfl _ (Builtin.function_mem_library f)

/-- A function takes its operands off the stack, the last one first. -/
theorem handleToken_function (evaluate : Evaluator) (strict : Bool) (f : Function)
    (values : Fin f.arity → Value) (stack : List Value) :
    handleToken evaluate id strict (Builtin.functionName f)
        (w.put id (c.reached (Builtin.functionName f) ((List.ofFn values).reverse ++ stack))) =
      match f.denote c.settings.elementary values with
      | .ok v => (w.put id (c.reached (Builtin.functionName f) (v :: stack)), .proceed)
      | .error reason => (w.put id (c.reached (Builtin.functionName f) stack), .fail reason) := by
  have apart : Token.isLiteral (Builtin.functionName f) = false :=
    (Builtin.names_apart _ (Builtin.function_mem_library f)).2.1
  have found : (c.reached (Builtin.functionName f)
      ((List.ofFn values).reverse ++ stack)).operators.lookup? (Builtin.functionName f) =
      some (.builtin (.function f)) := plain.lookup?_function f
  have enough : ¬ (c.reached (Builtin.functionName f)
      ((List.ofFn values).reverse ++ stack)).stack.length <
      (Operator.builtin (.function f)).arity := by
    show ¬ ((List.ofFn values).reverse ++ stack).length < f.arity
    rw [List.length_append, List.length_reverse, List.length_ofFn]
    exact Nat.not_lt.mpr (Nat.le_add_right ..)
  unfold handleToken
  rw [plain.get?_put]
  dsimp only
  rw [apart, found]
  dsimp only
  rw [if_neg Bool.false_ne_true, if_neg enough, callOperator_function rfl]
  show (match f.denote c.settings.elementary values with | .ok v => _ | .error reason => _) = _
  cases f.denote c.settings.elementary values with
  | ok v => exact congrArg (·, Outcome.proceed) (World.put_put ..)
  | error reason => exact congrArg (·, Outcome.fail reason) (World.put_put ..)

end Plain

/-! ## Expressions -/

/-- The run of an expression in which other tokens follow: it pushes the value, or stops where there
is none. -/
structure Expr.Runs (evaluate : Evaluator) (w : World) (id : Nat) (c : Context) (e : Expr) :
    Prop where
  value : ∀ {v : Value}, e.eval c.settings.elementary c.vars = .ok v →
    ∀ (position : Nat) (last : String) (stack : List Value) (rest : List String),
      runTokens evaluate id false position (e.tokens ++ rest) (w.put id (c.reached last stack)) =
        runTokens evaluate id false (position + e.tokens.length) rest
          (w.put id (c.reached (e.tokens.getLastD "") (v :: stack)))
  stop : ∀ {s : Stop}, e.eval c.settings.elementary c.vars = .error s →
    ∀ (position : Nat) (last : String) (stack : List Value) (rest : List String),
      runTokens evaluate id false position (e.tokens ++ rest) (w.put id (c.reached last stack)) =
        (w.put id { c.reached s.token (s.left.reverse ++ stack) with status := s.reason },
          .failed ⟨s.reason, s.token, position + s.position⟩)

section Operands

variable {evaluate : Evaluator} {w : World} {id : Nat} {c : Context} {n : Nat}
  {operands : Fin n → Expr} (each : ∀ i, (operands i).Runs evaluate w id c)
include each

/-- Operands push their values one upon the other. -/
theorem Expr.runs_operands {values : Fin n → Value}
    (all : Expr.evalAll c.settings.elementary c.vars operands = .ok values)
    (position : Nat) (last : String) (stack : List Value) (rest : List String) :
    ∃ token, runTokens evaluate id false position (Expr.operandTokens operands ++ rest)
        (w.put id (c.reached last stack)) =
      runTokens evaluate id false (position + (Expr.operandTokens operands).length) rest
        (w.put id (c.reached token ((List.ofFn values).reverse ++ stack))) := by
  induction n generalizing position last stack with
  | zero => exact ⟨last, rfl⟩
  | succ n ih =>
      obtain ⟨v, others, first, tail, rfl⟩ := Expr.evalAll_ok all
      have pushed := (each 0).value first position last stack
        (Expr.operandTokens (Fin.tail operands) ++ rest)
      obtain ⟨token, run⟩ := @ih (Fin.tail operands) (fun i => each i.succ) others tail
        (position + (operands 0).tokens.length) ((operands 0).tokens.getLastD "") (v :: stack)
      refine ⟨token, ?_⟩
      rw [Expr.operandTokens_succ, List.append_assoc, pushed, run, List.length_append,
        Nat.add_assoc, List.ofFn_succ, Fin.cons_zero, List.reverse_cons, List.append_assoc]
      simp only [Fin.cons_succ, List.singleton_append]

/-- Operands stop at the first that stops, above the values of those to its left. -/
theorem Expr.runs_operands_stop {s : Stop}
    (stopped : Expr.evalAll c.settings.elementary c.vars operands = .error s)
    (position : Nat) (last : String) (stack : List Value) (rest : List String) :
    runTokens evaluate id false position (Expr.operandTokens operands ++ rest)
        (w.put id (c.reached last stack)) =
      (w.put id { c.reached s.token (s.left.reverse ++ stack) with status := s.reason },
        .failed ⟨s.reason, s.token, position + s.position⟩) := by
  induction n generalizing position last stack s with
  | zero => cases stopped
  | succ n ih =>
      rw [Expr.operandTokens_succ, List.append_assoc]
      rcases Expr.evalAll_error stopped with first | ⟨v, inner, first, tail, rfl⟩
      · exact (each 0).stop first position last stack _
      · rw [(each 0).value first, @ih (Fin.tail operands) (fun i => each i.succ) inner tail]
        simp only [Stop.behind, List.reverse_cons, List.append_assoc, List.singleton_append,
          Nat.add_assoc]

end Operands

namespace Plain

variable {w : World} {id : Nat} {c : Context} (plain : Plain w id c)
include plain

/-- A token that pushes a value is the run of a leaf. -/
theorem runTokens_push {evaluate : Evaluator} {token : String} {v : Value}
    (pushes : ∀ stack, handleToken evaluate id false token (w.put id (c.reached token stack)) =
      (w.put id (c.reached token (v :: stack)), .proceed))
    (position : Nat) (last : String) (stack : List Value) (rest : List String) :
    runTokens evaluate id false position (token :: rest) (w.put id (c.reached last stack)) =
      runTokens evaluate id false (position + 1) rest
        (w.put id (c.reached token (v :: stack))) := by
  rw [runTokens_cons, plain.stepToken_eq, pushes]

theorem runs (evaluate : Evaluator) (e : Expr) : e.Runs evaluate w id c := by
  induction e with
  | literal token isLiteral =>
      refine ⟨fun evaluated position last stack rest => ?_, fun stopped => by cases stopped⟩
      cases evaluated
      exact plain.runTokens_push (plain.handleToken_literal evaluate false isLiteral) ..
  | reference name isWord =>
      refine ⟨fun evaluated position last stack rest => ?_, fun stopped => by cases stopped⟩
      cases evaluated
      exact plain.runTokens_push (plain.handleToken_reference evaluate isWord) ..
  | apply f operands ih =>
      constructor
      · intro v evaluated position last stack rest
        obtain ⟨values, all, applied⟩ := Expr.eval_apply_ok evaluated
        obtain ⟨token, run⟩ := Expr.runs_operands ih all position last stack
          (Builtin.functionName f :: rest)
        rw [Expr.tokens_apply, List.append_assoc, List.singleton_append, run, runTokens_cons,
          plain.stepToken_eq, plain.handleToken_function, applied]
        simp only [List.length_append, List.length_singleton, List.getLastD_concat, Nat.add_assoc]
      · intro s stopped position last stack rest
        rw [Expr.tokens_apply, List.append_assoc, List.singleton_append]
        rcases Expr.eval_apply_error stopped with inner | ⟨values, reason, all, refused, rfl⟩
        · exact Expr.runs_operands_stop ih inner position last stack _
        · obtain ⟨token, run⟩ := Expr.runs_operands ih all position last stack
            (Builtin.functionName f :: rest)
          have named : failureReason reason = reason := if_neg (Function.denote_ne_ok refused)
          rw [run, runTokens_cons, plain.stepToken_eq, plain.handleToken_function, refused]
          simp only [named, World.modify_put plain.present]
          rfl

theorem start : Plain (w.put id c.start) id c.start where
  present := World.get?_put_self plain.present
  unwatched := plain.unwatched
  unshared := plain.unshared
  operators := plain.operators

/-- The evaluation of an expression is a run of its tokens, from the start of its context. -/
theorem evaluate_eq_finish (isOpen : c.closed = false) (idle : c.busy = false) (e : Expr) :
    ∃ n, w.evaluate id e.render false =
      finish id (runTokens (evaluateAt n) id false 0 (e.tokens ++ [])
        ((w.put id c.start).put id (c.start.reached "" c.stack))) := by
  obtain ⟨n, level⟩ := World.length_eq_succ plain.present
  refine ⟨n, ?_⟩
  unfold World.evaluate
  rw [level, evaluateAt_succ_of_idle n plain.present isOpen idle, e.tokenize_render,
    List.append_nil, World.put_put]
  rfl

end Plain

end ReversePolish
