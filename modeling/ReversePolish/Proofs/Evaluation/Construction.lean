import ReversePolish.Proofs.Evaluation.Reference

/-!
Options of construction that make no difference.

Contexts that are built with different policies, different elementary functions, with or without the
advanced operators have different registries: the entries stand at other places, and the slots of
the index are taken over by other rules. But no two builtins have one name, so every name of a
builtin that both have means this builtin to both (`Context.lookup?_congr`), and only the advanced
operators call an elementary function (`Builtin.run?_congr`). So a token that names none of these
does the same to one stack as to the other, and a run of such tokens keeps the two contexts alike.
-/

namespace ReversePolish

/-! ## Builtins that call no elementary function -/

theorem UnaryFunction.apply_congr {f : UnaryFunction}
    (plain : .function (.unary f) ∉ Builtin.advanced) (el el' : Elementary) (a : Value) :
    f.apply el a = f.apply el' a := by
  cases f with
  | sqrt | log | log10 | exp | cos | sin | tan => exact absurd (by decide) plain
  | abs | not | ceil | floor | int => rfl

theorem BinaryFunction.apply_congr {f : BinaryFunction}
    (plain : .function (.binary f) ∉ Builtin.advanced) (el el' : Elementary) (a b : Value) :
    f.apply el a b = f.apply el' a b := by
  cases f with
  | fmod | pow => exact absurd (by decide) plain
  | _ => rfl

theorem Function.result?_congr {f : Function} (plain : .function f ∉ Builtin.advanced)
    (el el' : Elementary) (args : List Value) : f.result? el args = f.result? el' args := by
  unfold result?
  split
  · rfl
  · exact congrArg some (UnaryFunction.apply_congr plain el el' _)
  · exact congrArg some (BinaryFunction.apply_congr plain el el' _ _)
  · rfl
  · rfl
  · simp_all

/-- A builtin that is not advanced depends on the limit of `index` alone. -/
theorem Builtin.run?_congr {b : Builtin} (plain : b ∉ advanced) {set set' : Settings}
    (limit : set.maxIndex = set'.maxIndex) (stack : List Value) :
    b.run? set stack = b.run? set' stack := by
  cases b with
  | function f =>
      simp only [run?, runFunction,
        Function.result?_congr plain set.elementary set'.elementary]
  | index => simp only [run?, limit]
  | word | depth | stop => rfl

/-! ## Names of builtins -/

namespace Context

variable {o p : ContextOptions}

theorem mem_startingOperators {op : Operator} (member : op ∈ (startingOperators o).entries) :
    o.builtins = true ∧ ∃ b ∈ Builtin.library o.advanced, op = .builtin b := by
  rw [startingOperators, Registry.entries_insertAll] at member
  rcases List.mem_append.mp member with old | listed
  · exact absurd old List.not_mem_nil
  · split at listed
    · rename_i loaded
      rcases List.mem_map.mp listed with ⟨b, there, rfl⟩
      exact ⟨loaded, b, there, rfl⟩
    · exact absurd listed List.not_mem_nil

/-- A builtin that is not advanced belongs to every library. -/
theorem mem_library_of_plain {b : Builtin} (plain : b ∉ Builtin.advanced) {one : Bool}
    (member : b ∈ Builtin.library one) (other : Bool) : b ∈ Builtin.library other := by
  have all : ∀ b ∈ Builtin.library true, b ∉ Builtin.advanced → b ∈ Builtin.library false := by
    decide
  have full := Builtin.library_subset one member
  cases other with
  | true => exact full
  | false => exact all b full plain

/-- What a name means that is not the name of an advanced operator: a builtin that the other context
has as well. -/
theorem plain_of_lookup? {token : String} {op : Operator}
    (other : token ∉ Builtin.advanced.map Builtin.name)
    (found : (startingOperators o).lookup? token = some op) :
    o.builtins = true ∧
      ∃ b ∈ Builtin.library o.advanced, op = .builtin b ∧ b.name = token ∧ b ∉ Builtin.advanced := by
  rcases Registry.mem_of_lookup? found with ⟨member, named⟩
  rcases mem_startingOperators member with ⟨loaded, b, listed, rfl⟩
  refine ⟨loaded, b, listed, rfl, named, fun advanced => other ?_⟩
  exact List.mem_map.mpr ⟨b, advanced, named⟩

theorem lookup?_of_lookup? (same : o.builtins = p.builtins) {token : String} {op : Operator}
    (other : token ∉ Builtin.advanced.map Builtin.name)
    (found : (startingOperators o).lookup? token = some op) :
    (startingOperators p).lookup? token = some op := by
  rcases plain_of_lookup? other found with ⟨loaded, b, listed, rfl, rfl, plain⟩
  exact lookup?_startingOperators (same ▸ loaded) (mem_library_of_plain plain listed _)

/-- A name that is not the name of an advanced operator means the same to both contexts. -/
theorem lookup?_congr (same : o.builtins = p.builtins) {token : String}
    (other : token ∉ Builtin.advanced.map Builtin.name) :
    (startingOperators o).lookup? token = (startingOperators p).lookup? token := by
  cases found : (startingOperators o).lookup? token with
  | some op => exact (lookup?_of_lookup? same other found).symm
  | none =>
      cases found' : (startingOperators p).lookup? token with
      | none => rfl
      | some op =>
          rw [lookup?_of_lookup? same.symm other found'] at found
          cases found

end Context

/-! ## Two contexts -/

/-- A token means the same to two contexts, and so does what it calls. -/
structure Context.Agree (c d : Context) (token : String) : Prop where
  listed : c.operators.lookup? token = d.operators.lookup? token
  runs : ∀ b, c.operators.lookup? token = some (.builtin b) →
    ∀ stack, b.run? c.settings stack = b.run? d.settings stack

/-- Two contexts that hold the same and remember the same of their last evaluation. -/
structure Context.Alike (c d : Context) : Prop where
  stack : c.stack = d.stack
  vars : c.vars = d.vars
  status : c.status = d.status
  halted : c.halted = d.halted
  lastToken : c.lastToken = d.lastToken

section Runs

variable {w v : World} {i j : Nat} {c d : Context} (left : Unaided w i c) (right : Unaided v j d)
  (vars : c.vars = d.vars) (evaluate evaluate' : Evaluator) (strict : Bool)
include left right vars

/-- A token on which two contexts agree does the same to their stacks. -/
theorem handleToken_agree {token : String} (agree : c.Agree d token) (stack : List Value) :
    ∃ after outcome,
      handleToken evaluate i strict token (w.put i (c.reached token stack)) =
        (w.put i (c.reached token after), outcome) ∧
      handleToken evaluate' j strict token (v.put j (d.reached token stack)) =
        (v.put j (d.reached token after), outcome) := by
  rw [left.handleToken_eq, right.handleToken_eq, ← agree.listed, ← vars]
  cases literal : Token.isLiteral token with
  | true => exact ⟨_, _, rfl, rfl⟩
  | false =>
      simp only [Bool.false_eq_true, if_false]
      cases found : c.operators.lookup? token with
      | some op =>
          rcases Registry.mem_of_lookup? found with ⟨member, -⟩
          rcases left.builtins op member with ⟨b, rfl⟩
          dsimp only
          by_cases short : stack.length < (Operator.builtin b).arity
          · exact ⟨stack, .fail .argumentCount, if_pos short, if_pos short⟩
          · rcases b.exists_run? c.settings (Nat.not_lt.mp short) with ⟨effect, run⟩
            have run' : b.run? d.settings stack = some effect := agree.runs b found stack ▸ run
            refine ⟨effect.stack, effect.outcome, ?_, ?_⟩
            · rw [if_neg short, callOperator_builtin run, World.put_put]
              rfl
            · rw [if_neg short, callOperator_builtin run', World.put_put]
              rfl
      | none =>
          dsimp only
          cases Token.variableName? token with
          | none => exact ⟨_, _, rfl, rfl⟩
          | some name =>
              dsimp only
              cases c.vars.get? name with
              | some x => exact ⟨_, _, rfl, rfl⟩
              | none =>
                  cases strict with
                  | true => exact ⟨_, _, rfl, rfl⟩
                  | false => exact ⟨_, _, rfl, rfl⟩

/-- Runs of tokens on which two contexts agree have one reply, and leave the contexts alike. -/
theorem runTokens_agree (status : c.status = d.status) (halted : c.halted = d.halted)
    {tokens : List String} (agree : ∀ token ∈ tokens, c.Agree d token) (position : Nat)
    (last : String) (stack : List Value) :
    ∃ c' d' reply,
      runTokens evaluate i strict position tokens (w.put i (c.reached last stack)) =
        (w.put i c', reply) ∧
      runTokens evaluate' j strict position tokens (v.put j (d.reached last stack)) =
        (v.put j d', reply) ∧
      c'.Alike d' := by
  induction tokens generalizing position last stack with
  | nil => exact ⟨_, _, .ok, rfl, rfl, rfl, vars, status, halted, rfl⟩
  | cons token rest ih =>
      rcases handleToken_agree left right vars evaluate evaluate' strict
        (agree token List.mem_cons_self) stack with ⟨after, outcome, handled, handled'⟩
      rw [runTokens_cons, runTokens_cons, left.stepToken_eq, right.stepToken_eq, handled, handled']
      cases outcome with
      | proceed =>
          exact ih (fun other member => agree other (List.mem_cons_of_mem token member))
            (position + 1) token after
      | halt =>
          refine ⟨{ c.reached token after with halted := true },
            { d.reached token after with halted := true }, .ok, ?_, ?_, rfl, vars, status, rfl, rfl⟩
          · exact congrArg (·, Reply.ok) (World.modify_put left.present _)
          · exact congrArg (·, Reply.ok) (World.modify_put right.present _)
      | fail reason =>
          refine ⟨{ c.reached token after with status := failureReason reason },
            { d.reached token after with status := failureReason reason },
            .failed ⟨failureReason reason, token, position⟩, ?_, ?_, rfl, vars, rfl, halted, rfl⟩
          · exact congrArg (·, Reply.failed _) (World.modify_put left.present _)
          · exact congrArg (·, Reply.failed _) (World.modify_put right.present _)

end Runs

/-! ## Contexts that are built -/

/-- A new context that nobody watches, with values and variables. -/
def Context.furnished (o : ContextOptions) (stack : List Value) (vars : Variables) : Context :=
  { new { o with hook := none } with stack := stack, vars := vars }

namespace Context

variable {o p : ContextOptions}

theorem furnished_unaided {w : World} {id : Nat} {stack : List Value} {vars : Variables}
    (present : w.get? id = some (furnished o stack vars)) (unshared : w.sharedHook = none) :
    Unaided w id (furnished o stack vars) := by
  refine ⟨present, rfl, unshared, fun op member => ?_⟩
  rcases mem_startingOperators (o := { o with hook := none }) member with ⟨-, b, -, same⟩
  exact ⟨b, same⟩

theorem furnished_agree (same : o.builtins = p.builtins) (limit : o.maxIndex = p.maxIndex)
    {token : String} (other : token ∉ Builtin.advanced.map Builtin.name) (stack : List Value)
    (vars : Variables) :
    (furnished o stack vars).start.Agree (furnished p stack vars).start token where
  listed := lookup?_congr (o := { o with hook := none }) (p := { p with hook := none }) same other
  runs b found := by
    have meant : (startingOperators { o with hook := none }).lookup? token = some (.builtin b) :=
      found
    rcases plain_of_lookup? other meant with ⟨-, b', -, called, -, plain⟩
    cases called
    refine Builtin.run?_congr plain ?_
    show (if 0 < o.maxIndex then o.maxIndex.toNat else defaultMaxIndex) = _
    rw [limit]
    rfl

end Context

/-- The policy for duplicate names, the elementary functions and the presence of the advanced
operators make no difference to an expression that names none of these operators: from the same
stack and the same variables the evaluation has the same reply, and leaves the same behind. -/
theorem evaluate_construction {o p : ContextOptions} {policy : Policy} {elementary : Elementary}
    {advanced : Bool}
    (differ : p = { o with policy := policy, elementary := elementary, advanced := advanced })
    {w v : World} {i j : Nat} {stack : List Value} {vars : Variables}
    (present : w.get? i = some (.furnished o stack vars))
    (present' : v.get? j = some (.furnished p stack vars))
    (unshared : w.sharedHook = none) (unshared' : v.sharedHook = none) {input : String}
    (plain : ∀ token ∈ Token.tokenize input, token ∉ Builtin.advanced.map Builtin.name)
    (strict : Bool) :
    ∃ c d reply, w.evaluate i input strict = (w.put i c, reply) ∧
      v.evaluate j input strict = (v.put j d, reply) ∧ c.Alike d := by
  subst differ
  have left := Context.furnished_unaided present unshared
  have right := Context.furnished_unaided present' unshared'
  have agree (token : String) (member : token ∈ Token.tokenize input) :=
    Context.furnished_agree (o := o)
      (p := { o with policy := policy, elementary := elementary, advanced := advanced })
      rfl rfl (plain token member) stack vars
  rcases runTokens_agree left.start right.start rfl (evaluateAt (w.contexts.length - 1))
    (evaluateAt (v.contexts.length - 1)) strict rfl rfl agree 0 "" stack with
    ⟨c, d, reply, run, run', alike⟩
  refine ⟨c.release, d.release, reply, ?_, ?_, alike.stack, alike.vars, alike.status, alike.halted,
    alike.lastToken⟩
  · rw [left.evaluate_eq_finish rfl rfl]
    exact (congrArg (finish i) run).trans (left.finish_put c reply)
  · rw [right.evaluate_eq_finish rfl rfl]
    exact (congrArg (finish j) run').trans (right.finish_put d reply)

/-- The operators that must not be named. -/
example : Builtin.advanced.map Builtin.name =
    ["sqrt", "log", "log10", "exp", "fmod", "pow", "cos", "sin", "tan"] := by
  decide

/-- The one calculator knows the advanced operators; the other one has none, refuses duplicates and
has a cosine that is always zero. A variable may be called `cos` on both. -/
theorem evaluate_construction_cos :
    let o : ContextOptions := {}
    let flat : Elementary := { Elementary.standard with cos := fun _ => 0 }
    let p : ContextOptions := { o with policy := .reject, elementary := flat, advanced := false }
    let vars : Variables := ⟨[("cos", 5)]⟩
    let w : World := ⟨[.furnished o [9] vars], none, []⟩
    let v : World := ⟨[.furnished p [9] vars], none, []⟩
    ∃ c d, w.evaluate 0 "$cos" true = (w.put 0 c, .ok) ∧
      v.evaluate 0 "$cos" true = (v.put 0 d, .ok) ∧ c.Alike d ∧ c.stack = [5, 9] := by
  intro o flat p vars w v
  have plain : ∀ token ∈ Token.tokenize "$cos", token ∉ Builtin.advanced.map Builtin.name := by
    decide +kernel
  rcases evaluate_construction (o := o) (p := p) rfl (w := w) (v := v) (i := 0) (j := 0) rfl rfl
    rfl rfl plain true with ⟨c, d, reply, run, run', alike⟩
  have word : Text.IsWord "cos" := by decide +kernel
  have right : Unaided v 0 (.furnished p [9] vars) := Context.furnished_unaided rfl rfl
  have pushed : v.evaluate 0 "$cos" true = (v.put 0 { Context.furnished p [5, 9] vars with
      lastToken := "$cos" }, .ok) :=
    right.evaluate_reference rfl rfl word (Context.lookup?_reference rfl "cos") rfl true
  rw [run'] at pushed
  rcases Prod.mk.inj pushed with ⟨left, rfl⟩
  have stack : d.stack = [5, 9] :=
    Option.some.inj (congrArg (fun world : World => (world.get? 0).map Context.stack) left)
  exact ⟨c, d, run, run', alike, alike.stack.trans stack⟩

end ReversePolish
