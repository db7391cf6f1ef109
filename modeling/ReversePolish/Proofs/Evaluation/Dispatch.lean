import ReversePolish.Proofs.Evaluation.Independence
import ReversePolish.Proofs.Evaluation.Verdict

/-!
Which operator a token calls, and what a lookup by name tells about it.

A name that is registered is one word, so it is one token of an expression. A token is looked at as
a literal before it is looked up as the name of an operator. So the operator that is found under a
name is the one that the token calls, unless the name is a literal: such a name can be registered
and is found, but no expression ever calls it.

`operatorCalls` lists the operators that an evaluation calls, each with the stack that it finds.
-/

namespace ReversePolish

/-! ## The operators that an evaluation calls -/

/-- The operator that a token calls on a context, and the stack that it finds. -/
def calledOperator? (id : Nat) (token : String) (w : World) : Option (Operator × List Value) :=
  match w.get? id with
  | none => none
  | some c =>
    if Token.isLiteral token then none
    else
      match c.operators.lookup? token with
      | none => none
      | some op => if c.stack.length < op.arity then none else some (op, c.stack)

/-- The operators that a run of tokens calls, in their order. Those that their callbacks make other
evaluations call are not among them. -/
def operatorCalls (evaluate : Evaluator) (id : Nat) (strict : Bool) :
    List String → World → List (Operator × List Value)
  | [], _ => []
  | token :: rest, w =>
    let looked := callHook evaluate id token (w.modify id (Context.look token))
    (calledOperator? id token looked).toList ++
      match handleToken evaluate id strict token looked with
      | (w₁, .proceed) => operatorCalls evaluate id strict rest w₁
      | _ => []

/-- The operators that the evaluation of an expression calls. -/
def World.operatorCalls (w : World) (id : Nat) (input : String) (strict : Bool) :
    List (Operator × List Value) :=
  ReversePolish.operatorCalls (evaluateAt (w.contexts.length - 1)) id strict
    (Token.tokenize input) (w.modify id Context.start)

section Token

variable {id : Nat} {strict : Bool} {token : String} {w : World}

/-- A token that calls an operator does so once, and this is all that it does. -/
theorem handleToken_of_called {op : Operator} {stack : List Value}
    (called : calledOperator? id token w = some (op, stack)) (evaluate : Evaluator) :
    ∃ c, w.get? id = some c ∧ c.stack = stack ∧
      handleToken evaluate id strict token w = callOperator evaluate id c op w := by
  unfold calledOperator? at called
  cases present : w.get? id with
  | none =>
      rw [present] at called
      cases called
  | some c =>
      simp only [present] at called
      split at called
      · cases called
      · rename_i word
        split at called
        · cases called
        · rename_i found op₁ found₁
          split at called
          · cases called
          · rename_i enough
            cases called
            refine ⟨c, rfl, rfl, ?_⟩
            simp only [handleToken, present, if_neg word, found₁, if_neg enough]

end Token

/-! ## Names in the tables of contexts -/

theorem Registry.validName_of_register {hash : String → UInt64} {r registered : Registry hash}
    {name : String} {arity : Int} {callback : Option Callback}
    (accepted : r.register name arity callback = .ok registered) : validName name = true := by
  unfold register at accepted
  split at accepted
  · cases accepted
  · rename_i valid
    simpa using valid

/-- Every operator of a context can stand in an expression as one word. -/
def Context.Named (c : Context) : Prop :=
  ∀ op ∈ c.operators.entries, Registry.validName op.name = true

namespace Context.Named

theorem new (o : ContextOptions) : (Context.new o).Named := by
  intro op member
  rw [Context.new, startingOperators, Registry.entries_insertAll] at member
  rcases List.mem_append.mp member with old | loaded
  · exact absurd old List.not_mem_nil
  · split at loaded
    · obtain ⟨b, listed, rfl⟩ := List.mem_map.mp loaded
      have all : b ∈ Builtin.library true := by
        cases advanced : o.advanced with
        | true => rwa [advanced] at listed
        | false =>
            rw [advanced] at listed
            exact (by decide : ∀ b ∈ Builtin.library false, b ∈ Builtin.library true) b listed
      exact (Builtin.names_apart b all).1
    · exact absurd loaded List.not_mem_nil

variable {c : Context}

theorem perform (named : c.Named) (call : Call) : (c.perform call).1.Named := by
  cases call with
  | pop =>
      simp only [Context.perform]
      split <;> exact named
  | peek i =>
      simp only [Context.perform]
      split <;> exact named
  | store name =>
      simp only [Context.perform]
      split <;> exact named
  | register name arity callback =>
      simp only [Context.perform]
      rcases c.operators.register_cases name arity callback with
        ⟨error, refused⟩ | ⟨body, -, accepted⟩
      · rw [refused]
        exact named
      · rw [accepted]
        intro op member
        rcases List.mem_append.mp member with old | new
        · exact named op old
        · rw [List.mem_singleton.mp new]
          exact Registry.validName_of_register accepted
  | clearOperators => exact fun _ member => absurd member List.not_mem_nil
  | hook shared hook => cases shared <;> exact named
  | close =>
      show c.close.1.Named
      unfold Context.close
      split
      · exact named
      · split
        · exact named
        · exact fun _ member => absurd member List.not_mem_nil
  | _ => exact named

theorem alter {conf : Conf} {j : Nat} {d : Context} (alters : conf.Alters j c d)
    (named : c.Named) : d.Named := by
  cases alters with
  | called issued direct => exact named.perform _
  | _ => exact named

end Context.Named

/-- A name under which a context finds an operator, at whichever moment, is one token. -/
theorem tokenize_of_lookup? {options : List ContextOptions} {calls : List (Nat × Call)}
    {conf : Conf} (reached : Reach ⟨World.new options, [], calls, []⟩ conf) {id : Nat}
    {c : Context} (present : conf.world.get? id = some c) {name : String} {op : Operator}
    (found : c.operators.lookup? name = some op) : Token.tokenize name = [name] := by
  have named : c.Named := forall_contexts_of_reach (P := Context.Named) Context.Named.new
    (fun _ _ alters => Context.Named.alter alters) reached present
  obtain ⟨member, same⟩ := Registry.mem_of_lookup? found
  have valid := named op member
  rw [same] at valid
  exact Text.words_of_isWord (Registry.isWord_of_validName valid)

/-! ## The evaluation of a name -/

section Alone

variable {w : World} {id : Nat} {c : Context} (present : w.get? id = some c)
  (unwatched : c.hook = none) (unshared : w.sharedHook = none) {token : String}
  (single : Token.tokenize token = [token]) (strict : Bool)
include present unwatched unshared single

/-- An expression of one token, where nobody watches. -/
theorem evaluate_single (isOpen : c.closed = false) (idle : c.busy = false) :
    w.evaluate id token strict =
      let result := handleToken (evaluateAt (w.contexts.length - 1)) id strict token
        (w.put id (c.start.look token))
      finish id (afterToken (evaluateAt (w.contexts.length - 1)) id strict 0 token [] result.2
        result.1) := by
  have started : (w.put id c.start).get? id = some c.start := World.get?_put_self present
  rw [evaluate_eq_finish_modify present isOpen idle, single, runTokens_cons_eq,
    World.modify_eq_put present, stepToken_of_unwatched _ started unwatched unshared,
    World.put_put]

theorem operatorCalls_single :
    w.operatorCalls id token strict =
      (calledOperator? id token (w.put id (c.start.look token))).toList := by
  have looked : callHook (evaluateAt (w.contexts.length - 1)) id token
      ((w.modify id Context.start).modify id (Context.look token)) =
        w.put id (c.start.look token) := by
    have still : (c.start.look token).hook = none := unwatched
    rw [World.modify_eq_put present, World.modify_put present, callHook,
      World.get?_put_self present]
    dsimp only
    rw [still, World.sharedHook_put, unshared]
    rfl
  rw [World.operatorCalls, single, operatorCalls, looked]
  split <;> exact List.append_nil _

/-- A literal is pushed, whether or not an operator has its name. -/
theorem evaluate_single_literal (literal : Token.isLiteral token = true)
    (isOpen : c.closed = false) (idle : c.busy = false) :
    w.operatorCalls id token strict = [] ∧
      w.evaluate id token strict =
        (w.put id { c with
          stack := Token.literalValue token :: c.stack, status := .ok, halted := false,
          lastToken := token }, .ok) := by
  have there : (w.put id (c.start.look token)).get? id = some (c.start.look token) :=
    World.get?_put_self present
  rw [evaluate_single present unwatched unshared single strict isOpen idle,
    operatorCalls_single present unwatched unshared single strict]
  simp only [handleToken, calledOperator?, there, if_pos literal]
  refine ⟨rfl, ?_⟩
  simp only [finish, afterToken, runTokens, World.put_put, World.modify_put present, idle]
  rfl

section Operator

variable {op : Operator} (word : ¬Token.isLiteral token = true)
  (listed : c.operators.lookup? token = some op) (isOpen : c.closed = false)
  (idle : c.busy = false)
include word listed isOpen idle

/-- An operator is not called where values are missing. -/
theorem evaluate_single_short (few : c.stack.length < op.arity) :
    w.operatorCalls id token strict = [] ∧
      w.evaluate id token strict =
        (w.put id { c with status := .argumentCount, halted := false, lastToken := token },
          .failed ⟨.argumentCount, token, 0⟩) := by
  have there : (w.put id (c.start.look token)).get? id = some (c.start.look token) :=
    World.get?_put_self present
  have listed' : (c.start.look token).operators.lookup? token = some op := listed
  have few' : (c.start.look token).stack.length < op.arity := few
  rw [evaluate_single present unwatched unshared single strict isOpen idle,
    operatorCalls_single present unwatched unshared single strict]
  simp only [handleToken, calledOperator?, there, if_neg word, listed', if_pos few']
  refine ⟨rfl, ?_⟩
  simp only [finish, afterToken, World.modify_put present, idle]
  rfl

/-- An operator is called on the stack as it is, and the evaluation is this one call. -/
theorem evaluate_single_called (enough : op.arity ≤ c.stack.length) :
    w.operatorCalls id token strict = [(op, c.stack)] ∧
      w.evaluate id token strict =
        let inner := evaluateAt (w.contexts.length - 1)
        let d := c.start.look token
        let called := callOperator inner id d op (w.put id d)
        finish id (afterToken inner id strict 0 token [] called.2 called.1) := by
  have called : calledOperator? id token (w.put id (c.start.look token)) =
      some (op, c.stack) := by
    have listed' : (c.start.look token).operators.lookup? token = some op := listed
    have enough' : ¬(c.start.look token).stack.length < op.arity := Nat.not_lt.mpr enough
    simp only [calledOperator?, World.get?_put_self present, if_neg word, listed', if_neg enough']
    rfl
  obtain ⟨d, there, -, handled⟩ := @handleToken_of_called id strict token _ op c.stack
    called (evaluateAt (w.contexts.length - 1))
  cases there.symm.trans (World.get?_put_self present)
  rw [evaluate_single present unwatched unshared single strict isOpen idle, handled,
    operatorCalls_single present unwatched unshared single strict, called]
  exact ⟨rfl, rfl⟩

end Operator

end Alone

/-- What becomes of the evaluation of a name, at whichever moment an idle context that nobody watches
finds an operator under it. Unless the name is a literal, this operator is called, once and on the
stack as it is, and no other; or it is not called because values are missing. -/
theorem evaluate_name {options : List ContextOptions} {calls : List (Nat × Call)} {conf : Conf}
    (reached : Reach ⟨World.new options, [], calls, []⟩ conf) {id : Nat} {c : Context}
    (present : conf.world.get? id = some c) (isOpen : c.closed = false) (idle : c.busy = false)
    (unwatched : c.hook = none) (unshared : conf.world.sharedHook = none) {name : String}
    {op : Operator} (found : (conf.world.call id (.operator name)).2 = .operator (some op))
    (strict : Bool) :
    let w := conf.world
    let inner := evaluateAt (w.contexts.length - 1)
    let d := c.start.look name
    if Token.isLiteral name = true then
      w.operatorCalls id name strict = [] ∧
        w.evaluate id name strict =
          (w.put id { c with
            stack := Token.literalValue name :: c.stack, status := .ok, halted := false,
            lastToken := name }, .ok)
    else if c.stack.length < op.arity then
      w.operatorCalls id name strict = [] ∧
        w.evaluate id name strict =
          (w.put id { c with status := .argumentCount, halted := false, lastToken := name },
            .failed ⟨.argumentCount, name, 0⟩)
    else
      w.operatorCalls id name strict = [(op, c.stack)] ∧
        w.evaluate id name strict =
          let called := callOperator inner id d op (w.put id d)
          finish id (afterToken inner id strict 0 name [] called.2 called.1) := by
  intro w inner d
  have reply : (conf.world.call id (.operator name)).2 =
      .operator (c.operators.lookup? name) := by
    unfold World.call perform
    rw [present]
    rfl
  have listed : c.operators.lookup? name = some op := Reply.operator.inj (reply.symm.trans found)
  have single := tokenize_of_lookup? reached present listed
  split
  · exact evaluate_single_literal present unwatched unshared single strict ‹_› isOpen idle
  · split
    · exact evaluate_single_short present unwatched unshared single strict ‹_› listed isOpen idle ‹_›
    · exact evaluate_single_called present unwatched unshared single strict ‹_› listed isOpen idle
        (Nat.not_lt.mp ‹_›)

/-- An operator that pushes one. -/
def pushOne : Callback :=
  .run [.on none (.push 1)] .proceed

/-- A context in which it has been registered, and nothing else. -/
def pushingOne (name : String) : Context :=
  { Context.new { builtins := false } with
    operators := (Registry.empty .shadow).insert (.custom name 0 pushOne) }

theorem lookup?_pushingOne (name : String) :
    (pushingOne name).operators.lookup? name = some (.custom name 0 pushOne) :=
  Registry.lookup?_insert_empty .shadow (.custom name 0 pushOne)

theorem evaluate_name_one :
    let w : World := ⟨[pushingOne "one"], none, []⟩
    w.operatorCalls 0 "one" false = [(.custom "one" 0 pushOne, [])] ∧
      ((w.evaluate 0 "one" false).1.get? 0).map Context.stack = some [1] := by
  intro w
  have answered : Reach ⟨World.new [{ builtins := false }], [],
      [(0, .register "one" 0 (some pushOne))], []⟩ _ := .single (.answer rfl rfl)
  have reached : Reach _ ⟨w, [], [], [⟨0, .register "one" 0 (some pushOne), .ok⟩]⟩ := answered
  have found : (w.call 0 (.operator "one")).2 = .operator (some (.custom "one" 0 pushOne)) :=
    congrArg Reply.operator (lookup?_pushingOne "one")
  have present : w.get? 0 = some (pushingOne "one") := rfl
  have result := evaluate_name reached present rfl rfl rfl rfl found false
  rw [if_neg (by decide), if_neg (by decide)] at result
  refine ⟨result.1, ?_⟩
  rw [result.2]
  rfl

/-- An operator can be registered under a literal and is found there, with enough values for it on
the stack; the evaluation of the name pushes the literal instead, and calls no operator. -/
theorem evaluate_registered_literal :
    ∃ conf, Reach ⟨World.new [{ builtins := false }], [],
        [(0, .register "5" 0 (some pushOne))], []⟩ conf ∧
      (conf.world.call 0 (.operator "5")).2 = .operator (some (.custom "5" 0 pushOne)) ∧
      conf.world.operatorCalls 0 "5" false = [] ∧
      ((conf.world.evaluate 0 "5" false).1.get? 0).map Context.stack = some [5] := by
  let w : World := ⟨[pushingOne "5"], none, []⟩
  have answered : Reach ⟨World.new [{ builtins := false }], [],
      [(0, .register "5" 0 (some pushOne))], []⟩ _ := .single (.answer rfl rfl)
  have reached : Reach _ ⟨w, [], [], [⟨0, .register "5" 0 (some pushOne), .ok⟩]⟩ := answered
  have present : w.get? 0 = some (pushingOne "5") := rfl
  have pushed := evaluate_single_literal present rfl rfl
    (by decide +kernel : Token.tokenize "5" = ["5"]) false (by decide) rfl rfl
  refine ⟨_, reached, congrArg Reply.operator (lookup?_pushingOne "5"), pushed.1, ?_⟩
  rw [pushed.2]
  rfl

end ReversePolish
