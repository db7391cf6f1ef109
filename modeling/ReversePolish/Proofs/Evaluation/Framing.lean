import ReversePolish.Proofs.Evaluation.Postfix
import ReversePolish.Proofs.Operator.Effect

/-!
Programs of builtins do not look below what they use.

Where all operators are builtins and nobody watches, a token changes the stack of its context and
nothing else. Values that are put below the stack stay below, and make no difference, unless a token
failed for want of values; then those below would have been taken. `depth` is the one builtin that
looks at the whole stack, so it is left out.

The two runs that are compared differ in the stack alone. The statements name the context that the
first run leaves, and give that of the second as the same one above the values
(`Context.above`).
-/

namespace ReversePolish

/-- A context whose operators are all builtins, whichever they are. -/
def Context.OnlyBuiltins (c : Context) : Prop :=
  ∀ op ∈ c.operators.entries, ∃ b, op = .builtin b

/-- What a program of builtins needs to be run as such: no other operators, and nobody watching. -/
structure Unaided (w : World) (id : Nat) (c : Context) : Prop where
  present : w.get? id = some c
  unwatched : c.hook = none
  unshared : w.sharedHook = none
  builtins : c.OnlyBuiltins

/-- The same context with values below its stack. -/
def Context.above (base : List Value) (c : Context) : Context :=
  { c with stack := c.stack ++ base }

/-- Two contexts that differ at most in their stacks and in how their evaluations stand. -/
structure Context.SameTables (c d : Context) : Prop where
  vars : d.vars = c.vars
  operators : d.operators = c.operators
  hook : d.hook = c.hook
  settings : d.settings = c.settings

/-- Whether an evaluation failed for want of values. -/
def Reply.Starved (reply : Reply) : Prop :=
  ∃ token position, reply = .failed ⟨.argumentCount, token, position⟩

/-! ## Tokens -/

/-- What handling a token does to a stack: it leaves one, with an outcome, and leaves the same above
other values unless it fails for want of values. -/
structure Handles (evaluate : Evaluator) (w : World) (id : Nat) (c : Context) (strict : Bool)
    (token : String) (stack left : List Value) (outcome : Outcome) : Prop where
  alone : handleToken evaluate id strict token (w.put id (c.reached token stack)) =
    (w.put id (c.reached token left), outcome)
  above : outcome ≠ .fail .argumentCount → ∀ base,
    handleToken evaluate id strict token (w.put id (c.reached token (stack ++ base))) =
      (w.put id (c.reached token (left ++ base)), outcome)

/-- What a run does to a context, given as a function of the stack that it starts on. It changes
neither tables nor settings, and above other values it does the same unless it fails for want of
values. -/
structure Frames (w : World) (id : Nat) (c : Context) (run : List Value → World × Reply)
    (stack : List Value) (d : Context) (reply : Reply) : Prop where
  alone : run stack = (w.put id d, reply)
  tables : c.SameTables d
  above : ¬ reply.Starved → ∀ base, run (stack ++ base) = (w.put id (d.above base), reply)

namespace Unaided

variable {w : World} {id : Nat} {c : Context} (unaided : Unaided w id c) (evaluate : Evaluator)
  (strict : Bool)
include unaided

theorem get?_put (token : String) (stack : List Value) :
    (w.put id (c.reached token stack)).get? id = some (c.reached token stack) :=
  World.get?_put_self unaided.present

theorem stepToken_eq (token last : String) (stack : List Value) :
    stepToken evaluate id strict token (w.put id (c.reached last stack)) =
      handleToken evaluate id strict token (w.put id (c.reached token stack)) := by
  rw [stepToken_of_unwatched evaluate (unaided.get?_put last stack) unaided.unwatched
    unaided.unshared, World.put_put]
  rfl

/-- The cases of a token, as far as they can be told from its context. -/
theorem handleToken_eq (token : String) (stack : List Value) :
    handleToken evaluate id strict token (w.put id (c.reached token stack)) =
      if Token.isLiteral token then
        (w.put id (c.reached token (Token.literalValue token :: stack)), .proceed)
      else
        match c.operators.lookup? token with
        | some op =>
          if stack.length < op.arity then
            (w.put id (c.reached token stack), .fail .argumentCount)
          else
            callOperator evaluate id (c.reached token stack) op
              (w.put id (c.reached token stack))
        | none =>
          match Token.variableName? token with
          | none => (w.put id (c.reached token stack), .fail .unknownToken)
          | some name =>
            match c.vars.get? name with
            | some v => (w.put id (c.reached token (v :: stack)), .proceed)
            | none =>
              if strict then (w.put id (c.reached token stack), .fail .unknownToken)
              else (w.put id (c.reached token (0 :: stack)), .proceed) := by
  unfold handleToken
  rw [unaided.get?_put]
  simp only [World.put_put]
  rfl

/-- A builtin other than `depth` is handled alike above all values. -/
theorem handles_builtin {token : String} {b : Builtin} (word : Token.isLiteral token = false)
    (found : c.operators.lookup? token = some (.builtin b)) (other : b ≠ .depth)
    (stack : List Value) :
    ∃ left outcome, Handles evaluate w id c strict token stack left outcome := by
  have cases (stack : List Value) := unaided.handleToken_eq evaluate strict token stack
  simp only [word, found, Bool.false_eq_true, if_false] at cases
  by_cases short : stack.length < (Operator.builtin b).arity
  · refine ⟨stack, .fail .argumentCount, ?_, fun fed => absurd rfl fed⟩
    rw [cases, if_pos short]
  · have enough : b.arity ≤ stack.length := Nat.not_lt.mp short
    obtain ⟨effect, run⟩ := b.exists_run? c.settings enough
    refine ⟨effect.stack, effect.outcome, ?_, fun fed base => ?_⟩
    · rw [cases, if_neg short, callOperator_builtin run, World.put_put]
      rfl
    · have long : ¬ (stack ++ base).length < (Operator.builtin b).arity := by
        rw [List.length_append]
        exact Nat.not_lt.mpr (Nat.le_add_right_of_le enough)
      rw [cases, if_neg long, callOperator_builtin (b.run?_append other run fed base),
        World.put_put]
      rfl

/-- Every token but `depth` is handled alike above all values. -/
theorem handles {token : String} (shallow : token ≠ Builtin.depth.name) (stack : List Value) :
    ∃ left outcome, Handles evaluate w id c strict token stack left outcome := by
  have cases (stack : List Value) := unaided.handleToken_eq evaluate strict token stack
  cases literal : Token.isLiteral token with
  | true =>
      simp only [literal, if_true] at cases
      exact ⟨_, _, cases stack, fun _ base => cases (stack ++ base)⟩
  | false =>
      cases found : c.operators.lookup? token with
      | some op =>
          obtain ⟨member, named⟩ := Registry.mem_of_lookup? found
          obtain ⟨b, rfl⟩ := unaided.builtins op member
          refine unaided.handles_builtin evaluate strict literal found ?_ stack
          rintro rfl
          exact shallow named.symm
      | none =>
          simp only [literal, found, Bool.false_eq_true, if_false] at cases
          cases named : Token.variableName? token with
          | none =>
              simp only [named] at cases
              exact ⟨_, _, cases stack, fun _ base => cases (stack ++ base)⟩
          | some name =>
              simp only [named] at cases
              cases value : c.vars.get? name with
              | some v =>
                  simp only [value] at cases
                  exact ⟨_, _, cases stack, fun _ base => cases (stack ++ base)⟩
              | none =>
                  simp only [value] at cases
                  cases strict with
                  | true => exact ⟨_, _, cases stack, fun _ base => cases (stack ++ base)⟩
                  | false => exact ⟨_, _, cases stack, fun _ base => cases (stack ++ base)⟩

theorem runTokens_frames {tokens : List String} (shallow : Builtin.depth.name ∉ tokens)
    (position : Nat) (last : String) (stack : List Value) :
    ∃ d reply, Frames w id c
      (fun stack => runTokens evaluate id strict position tokens (w.put id (c.reached last stack)))
      stack d reply := by
  induction tokens generalizing position last stack with
  | nil => exact ⟨c.reached last stack, .ok, rfl, ⟨rfl, rfl, rfl, rfl⟩, fun _ _ => rfl⟩
  | cons token rest ih =>
      rw [List.mem_cons, not_or] at shallow
      obtain ⟨left, outcome, handled⟩ :=
        unaided.handles evaluate strict (Ne.symm shallow.1) stack
      simp only [runTokens_cons, unaided.stepToken_eq]
      cases outcome with
      | proceed =>
          obtain ⟨d, reply, run⟩ := ih shallow.2 (position + 1) token left
          refine ⟨d, reply, ?_, run.tables, fun fed base => ?_⟩
          · rw [handled.alone]
            exact run.alone
          · rw [handled.above (by rintro ⟨⟩)]
            exact run.above fed base
      | halt =>
          refine ⟨{ c.reached token left with halted := true }, .ok, ?_, ⟨rfl, rfl, rfl, rfl⟩,
            fun _ base => ?_⟩
          · rw [handled.alone]
            exact congrArg (·, Reply.ok) (World.modify_put unaided.present _)
          · rw [handled.above (by rintro ⟨⟩)]
            exact congrArg (·, Reply.ok) (World.modify_put unaided.present _)
      | fail reason =>
          refine ⟨{ c.reached token left with status := failureReason reason },
            .failed ⟨failureReason reason, token, position⟩, ?_, ⟨rfl, rfl, rfl, rfl⟩,
            fun fed base => ?_⟩
          · rw [handled.alone]
            exact congrArg (·, Reply.failed _) (World.modify_put unaided.present _)
          · have other : Outcome.fail reason ≠ .fail .argumentCount := by
              rintro ⟨⟩
              exact fed ⟨token, position, rfl⟩
            rw [handled.above other]
            exact congrArg (·, Reply.failed _) (World.modify_put unaided.present _)

theorem start : Unaided (w.put id c.start) id c.start where
  present := World.get?_put_self unaided.present
  unwatched := unaided.unwatched
  unshared := unaided.unshared
  builtins := unaided.builtins

theorem evaluateAt_eq_finish (isOpen : c.closed = false) (idle : c.busy = false) (n : Nat)
    (input : String) (stack : List Value) :
    evaluateAt (n + 1) (w.put id { c with stack := stack }) id input strict =
      finish id (runTokens (evaluateAt n) id strict 0 (Token.tokenize input)
        ((w.put id c.start).put id (c.start.reached "" stack))) := by
  have there : (w.put id { c with stack := stack }).get? id = some { c with stack := stack } :=
    World.get?_put_self unaided.present
  rw [evaluateAt_succ_of_idle n there isOpen idle, World.put_put, World.put_put]
  rfl

theorem finish_put (d : Context) (reply : Reply) :
    finish id ((w.put id c.start).put id d, reply) = (w.put id d.release, reply) := by
  unfold finish
  rw [World.put_put, World.modify_put unaided.present]

/-- An evaluation is a run of its tokens, or is refused whatever the stack. -/
theorem evaluate_frames {input : String} (shallow : Builtin.depth.name ∉ Token.tokenize input)
    (stack : List Value) :
    ∃ d reply, Frames w id c
      (fun stack => (w.put id { c with stack := stack }).evaluate id input strict)
      stack d reply := by
  obtain ⟨n, level⟩ := World.length_eq_succ unaided.present
  unfold World.evaluate
  simp only [World.length_put, level]
  by_cases idle : c.closed = false ∧ c.busy = false
  · obtain ⟨d, reply, run⟩ :=
      unaided.start.runTokens_frames (evaluateAt n) strict shallow 0 "" stack
    have started := unaided.evaluateAt_eq_finish strict idle.1 idle.2 n input
    refine ⟨d.release, reply, ?_, ⟨run.tables.vars, run.tables.operators, run.tables.hook,
      run.tables.settings⟩, fun fed base => ?_⟩
    · rw [started, run.alone, unaided.finish_put]
    · rw [started, run.above fed base, unaided.finish_put]
      rfl
  · have refused (stack : List Value) :
        evaluateAt (n + 1) (w.put id { c with stack := stack }) id input strict =
          (w.put id { c with stack := stack }, if c.closed then .closed else .busy) := by
      have there : (w.put id { c with stack := stack }).get? id =
          some { c with stack := stack } := World.get?_put_self unaided.present
      have other : (w.put id { c with stack := stack }).isIdle id = false := by
        rw [World.isIdle, there, Option.any_some]
        grind
      rw [evaluateAt_of_not_idle _ other, refuseEvaluation, there]
      dsimp only
      split <;> rfl
    exact ⟨{ c with stack := stack }, _, refused stack, ⟨rfl, rfl, rfl, rfl⟩,
      fun _ base => refused (stack ++ base)⟩

end Unaided

/-- An evaluation of builtins changes neither tables nor settings. Unless it fails for want of
values, values below the stack make no difference: the reply is the same, and they are still there,
below what the evaluation leaves. -/
theorem evaluate_above {w : World} {id : Nat} {c : Context} (unaided : Unaided w id c)
    {input : String} (shallow : Builtin.depth.name ∉ Token.tokenize input) (strict : Bool) :
    let run := fun stack : List Value =>
      (w.put id { c with stack := stack }).evaluate id input strict
    (∀ stack, ∃ d, (run stack).1 = w.put id d ∧ c.SameTables d) ∧
      ∀ stack base, ¬ (run stack).2.Starved →
        ∃ d reply, run stack = (w.put id d, reply) ∧
          run (stack ++ base) = (w.put id (d.above base), reply) := by
  intro run
  constructor
  · intro stack
    obtain ⟨d, reply, frames⟩ := unaided.evaluate_frames strict shallow stack
    exact ⟨d, congrArg Prod.fst frames.alone, frames.tables⟩
  · intro stack base fed
    obtain ⟨d, reply, frames⟩ := unaided.evaluate_frames strict shallow stack
    have same : (run stack).2 = reply := congrArg Prod.snd frames.alone
    rw [same] at fed
    exact ⟨d, reply, frames.alone, frames.above fed base⟩

/-- The count on top says that `index` takes two values, and the place of the one that is chosen
lies below them. What lies further down stays. -/
theorem evaluate_above_index :
    let c : Context := Context.new { maxIndex := 2 }
    let w : World := ⟨[c], none, []⟩
    let run := fun stack : List Value =>
      (w.put 0 { c with stack := stack }).evaluate 0 "2 index" false
    Unaided w 0 c ∧ ∀ base : List Value, run ([20, 10, 1] ++ base) =
      (w.put 0 { c with stack := 20 :: base, lastToken := "index" }, .ok) := by
  intro c w run
  have unaided : Unaided w 0 c := by
    refine ⟨rfl, rfl, rfl, fun op member => ?_⟩
    have entries : c.operators.entries = (Builtin.library true).map .builtin :=
      Registry.entries_insertAll (.empty .shadow) _
    rw [entries] at member
    obtain ⟨b, -, same⟩ := List.mem_map.mp member
    exact ⟨b, same.symm⟩
  have words : Token.tokenize "2 index" = ["2", "index"] := by decide +kernel
  have index : c.start.operators.lookup? "index" = some (.builtin .index) :=
    @Context.lookup?_startingOperators { maxIndex := 2 } rfl .index (by decide)
  have counted := unaided.start.handleToken_eq (evaluateAt 0) false "2" [20, 10, 1]
  have two : Token.literalValue "2" = 2 := by decide +kernel
  rw [if_pos (by decide), two] at counted
  have chosen := unaided.start.handleToken_eq (evaluateAt 0) false "index" [2, 20, 10, 1]
  have effect : Builtin.index.run? c.settings [2, 20, 10, 1] = some ⟨[20], .proceed⟩ := by
    decide +kernel
  rw [if_neg (by decide), index] at chosen
  dsimp only at chosen
  rw [if_neg (by decide), callOperator_builtin effect] at chosen
  have alone : run [20, 10, 1] = (w.put 0 { c with stack := [20], lastToken := "index" }, .ok) := by
    show evaluateAt 1 (w.put 0 { c with stack := [20, 10, 1] }) 0 "2 index" false = _
    rw [unaided.evaluateAt_eq_finish false rfl rfl, words, runTokens_cons,
      unaided.start.stepToken_eq, counted]
    dsimp only
    rw [runTokens_cons, unaided.start.stepToken_eq, chosen, World.put_put]
    exact unaided.finish_put _ _
  have shallow : Builtin.depth.name ∉ Token.tokenize "2 index" := by
    rw [words]
    decide
  refine ⟨unaided, fun base => ?_⟩
  obtain ⟨d, reply, first, second⟩ := (evaluate_above unaided shallow false).2 [20, 10, 1] base (by
    rintro ⟨token, position, starved⟩
    cases (congrArg Prod.snd alone).symm.trans starved)
  obtain ⟨world, rfl⟩ := Prod.mk.inj (first.symm.trans alone)
  have same : d = { c with stack := [20], lastToken := "index" } :=
    (List.cons.inj (congrArg World.contexts world)).1
  rw [same] at second
  exact second

end ReversePolish
