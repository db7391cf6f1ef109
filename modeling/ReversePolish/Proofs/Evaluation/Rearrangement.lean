import ReversePolish.Proofs.Evaluation.Construction

/-!
Programs of stack words only move values.

A stack word copies, drops and reorders what lies on top of the stack without looking at a value, so
it commutes with every change that is made to all values alike (`StackWord.run?_map`). A token that
names a stack word does just this to the stack of its context, or finds too few values and does
nothing (`Plain.handleToken_word`); hence a run of such tokens on changed values is the run on the
values, with the change made to what is left of them. A change that makes all values equal shows
that nothing but the number of values decides where the run fails.
-/

namespace ReversePolish

/-- A stack word treats all values alike. -/
theorem StackWord.run?_map {α β : Type} (f : α → β) (x : StackWord) (stack : List α) :
    x.run? (stack.map f) = (x.run? stack).map (List.map f) := by
  cases x <;> rcases stack with _ | ⟨a, _ | ⟨b, _ | ⟨c, stack⟩⟩⟩ <;> rfl

/-- The same context with its values changed. -/
def Context.relabel (f : Value → Value) (c : Context) : Context :=
  { c with stack := c.stack.map f }

theorem Builtin.word_mem_library (x : StackWord) : .word x ∈ Builtin.library true := by
  cases x <;> decide

namespace Plain

variable {w : World} {id : Nat} {c : Context} (plain : Plain w id c)
include plain

/-- A context with the usual operators has no others than builtins. -/
theorem unaided : Unaided w id c where
  present := plain.present
  unwatched := plain.unwatched
  unshared := plain.unshared
  builtins := by
    intro op member
    rw [plain.operators] at member
    rcases Context.mem_startingOperators member with ⟨-, b, -, same⟩
    exact ⟨b, same⟩

theorem lookup?_word (x : StackWord) :
    c.operators.lookup? (Builtin.wordName x) = some (.builtin (.word x)) := by
  rw [plain.operators]
  exact @Context.lookup?_startingOperators {} rfl (.word x) (Builtin.word_mem_library x)

variable (evaluate : Evaluator) (strict : Bool)

/-- A stack word rearranges the stack, or fails for want of values and leaves it. -/
theorem handleToken_word (x : StackWord) (stack : List Value) :
    handleToken evaluate id strict (Builtin.wordName x)
        (w.put id (c.reached (Builtin.wordName x) stack)) =
      match x.run? stack with
      | some left => (w.put id (c.reached (Builtin.wordName x) left), .proceed)
      | none => (w.put id (c.reached (Builtin.wordName x) stack), .fail .argumentCount) := by
  have apart : Token.isLiteral (Builtin.wordName x) = false :=
    (Builtin.names_apart _ (Builtin.word_mem_library x)).2.1
  have enough := x.isSome_run?_iff stack
  rw [plain.unaided.handleToken_eq, apart, plain.lookup?_word]
  simp only [Bool.false_eq_true, if_false]
  cases run : x.run? stack with
  | none =>
      rw [run] at enough
      have short : stack.length < (Operator.builtin (.word x)).arity :=
        Nat.not_le.mp (fun le => Bool.false_ne_true (enough.mpr le))
      exact if_pos short
  | some left =>
      rw [run] at enough
      have long : ¬stack.length < (Operator.builtin (.word x)).arity :=
        Nat.not_lt.mpr (enough.mp rfl)
      have effect : (Builtin.word x).run? c.settings stack = some ⟨left, .proceed⟩ := by
        rw [Builtin.run?, run]
        rfl
      rw [if_neg long, callOperator_builtin effect, World.put_put]
      rfl

end Plain

/-! ## Runs -/

/-- How a run of stack words ends, given as a function of the stack that it starts on: behind the
last of its tokens, or at a token that finds too few values; on changed values at the same token,
with what is left of the values changed. The first of the tokens has the place `position`. -/
structure Rearranges (w : World) (id : Nat) (tokens : List String) (position : Nat)
    (run : List Value → World × Reply) (stack : List Value) (d : Context) (reply : Reply) :
    Prop where
  alone : run stack = (w.put id d, reply)
  ends : reply = .ok ∧ d.halted = false ∨
    ∃ i token, tokens[i]? = some token ∧ reply = .failed ⟨.argumentCount, token, position + i⟩
  relabelled : ∀ f : Value → Value, run (stack.map f) = (w.put id (d.relabel f), reply)

theorem Plain.runTokens_rearranges {w : World} {id : Nat} {c : Context} (plain : Plain w id c)
    (evaluate : Evaluator) (strict : Bool) (running : c.halted = false) (words : List StackWord)
    (position : Nat) (last : String) (stack : List Value) :
    ∃ d reply, Rearranges w id (words.map Builtin.wordName) position
      (fun stack => runTokens evaluate id strict position (words.map Builtin.wordName)
        (w.put id (c.reached last stack))) stack d reply := by
  induction words generalizing position last stack with
  | nil => exact ⟨c.reached last stack, .ok, rfl, .inl ⟨rfl, running⟩, fun f => rfl⟩
  | cons x rest ih =>
      have handled (stack : List Value) := plain.handleToken_word evaluate strict x stack
      have changed (f : Value → Value) := x.run?_map f stack
      simp only [List.map_cons, runTokens_cons, plain.stepToken_eq]
      cases run : x.run? stack with
      | some left =>
          rcases ih (position + 1) (Builtin.wordName x) left with ⟨d, reply, moved⟩
          refine ⟨d, reply, ?_, ?_, fun f => ?_⟩
          · rw [handled, run]
            exact moved.alone
          · rcases moved.ends with through | ⟨i, token, here, short⟩
            · exact .inl through
            · refine .inr ⟨i + 1, token, here, ?_⟩
              rw [short, Nat.add_assoc, Nat.add_comm 1 i]
          · rw [handled, changed, run]
            exact moved.relabelled f
      | none =>
          refine ⟨{ c.reached (Builtin.wordName x) stack with status := .argumentCount },
            .failed ⟨.argumentCount, Builtin.wordName x, position⟩, ?_,
            .inr ⟨0, Builtin.wordName x, rfl, rfl⟩, fun f => ?_⟩
          · rw [handled, run]
            exact congrArg (·, Reply.failed _) (World.modify_put plain.present _)
          · rw [handled, changed, run]
            exact congrArg (·, Reply.failed _) (World.modify_put plain.present _)

/-- Tokens that are all names of stack words. -/
theorem exists_words {tokens : List String}
    (only : ∀ token ∈ tokens, ∃ x, token = Builtin.wordName x) :
    ∃ words : List StackWord, tokens = words.map Builtin.wordName := by
  induction tokens with
  | nil => exact ⟨[], rfl⟩
  | cons token rest ih =>
      rcases only token List.mem_cons_self with ⟨x, rfl⟩
      rcases ih (fun other member => only other (List.mem_cons_of_mem _ member)) with ⟨words, rfl⟩
      exact ⟨x :: words, rfl⟩

/-- An expression of stack words succeeds, or fails at a token that finds too few values. On values
that are all changed by a function it ends in the same way, at the same token, and leaves the values
that it leaves without the change, changed by the function. Where it ends depends on nothing but the
number of values. -/
theorem evaluate_rearranges {w : World} {id : Nat} {c : Context} (plain : Plain w id c)
    (isOpen : c.closed = false) (idle : c.busy = false) {input : String}
    (only : ∀ token ∈ Token.tokenize input, ∃ x, token = Builtin.wordName x) (strict : Bool) :
    let run := fun stack : List Value =>
      (w.put id { c with stack := stack }).evaluate id input strict
    (∀ stack, ∃ d reply, Rearranges w id (Token.tokenize input) 0 run stack d reply) ∧
      ∀ stack other : List Value, stack.length = other.length →
        (run stack).2 = (run other).2 := by
  intro run
  rcases exists_words only with ⟨words, tokens⟩
  rcases World.length_eq_succ plain.present with ⟨n, level⟩
  have started (stack : List Value) : run stack =
      finish id (runTokens (evaluateAt n) id strict 0 (words.map Builtin.wordName)
        ((w.put id c.start).put id (c.start.reached "" stack))) := by
    show World.evaluate _ id input strict = _
    rw [World.evaluate, World.length_put, level, ← tokens]
    exact plain.unaided.evaluateAt_eq_finish strict isOpen idle n input stack
  have moved (stack : List Value) :
      ∃ d reply, Rearranges w id (Token.tokenize input) 0 run stack d reply := by
    rcases plain.start.runTokens_rearranges (evaluateAt n) strict rfl words 0 "" stack with
      ⟨d, reply, alone, ends, relabelled⟩
    refine ⟨d.release, reply, ?_, tokens ▸ ends, fun f => ?_⟩
    · rw [started, alone, plain.unaided.finish_put]
    · rw [started, relabelled f, plain.unaided.finish_put]
      rfl
  refine ⟨moved, fun stack other same => ?_⟩
  -- A function that makes all values equal leaves of a stack nothing but its length.
  have levelled (stack : List Value) :
      (run stack).2 = (run (List.replicate stack.length 0)).2 := by
    rcases moved stack with ⟨d, reply, moved⟩
    have equal := moved.relabelled (fun _ => 0)
    rw [List.map_const'] at equal
    rw [moved.alone, equal]
  rw [levelled stack, levelled other, same]

/-- Two values are copied and moved, and at last they are too few. What becomes of one and two
becomes of all values. -/
theorem evaluate_rearranges_pair :
    let c : Context := Context.new {}
    let w : World := ⟨[c], none, []⟩
    let run := fun stack : List Value =>
      (w.put 0 { c with stack := stack }).evaluate 0 "over rot drop rot" false
    Plain w 0 c ∧ ∀ a b : Value, run [a, b] =
      (w.put 0 { c with stack := [b, a], status := .argumentCount, lastToken := "rot" },
        .failed ⟨.argumentCount, "rot", 3⟩) := by
  intro c w run
  have plain : Plain w 0 c := ⟨rfl, rfl, rfl, rfl⟩
  have words : Token.tokenize "over rot drop rot" =
      [.over, .rot, .drop, .rot].map Builtin.wordName := by decide +kernel
  have only : ∀ token ∈ Token.tokenize "over rot drop rot",
      ∃ x, token = Builtin.wordName x := by
    intro token member
    rw [words] at member
    rcases List.mem_map.mp member with ⟨x, -, same⟩
    exact ⟨x, same.symm⟩
  have numbers : run [1, 2] =
      (w.put 0 { c with stack := [2, 1], status := .argumentCount, lastToken := "rot" },
        .failed ⟨.argumentCount, "rot", 3⟩) := by
    show evaluateAt 1 (w.put 0 { c with stack := [1, 2] }) 0 "over rot drop rot" false = _
    rw [plain.unaided.evaluateAt_eq_finish false rfl rfl, words]
    simp only [List.map_cons, runTokens_cons, plain.start.stepToken_eq,
      plain.start.handleToken_word, StackWord.run?, World.modify_put plain.start.present]
    exact plain.unaided.finish_put _ _
  refine ⟨plain, fun a b => ?_⟩
  rcases (evaluate_rearranges plain rfl rfl only false).1 [1, 2] with ⟨d, reply, moved⟩
  rcases Prod.mk.inj (moved.alone.symm.trans numbers) with ⟨world, rfl⟩
  have same : d = { c with stack := [2, 1], status := .argumentCount, lastToken := "rot" } :=
    (List.cons.inj (congrArg World.contexts world)).1
  have renamed := moved.relabelled (fun v => if v = 1 then a else b)
  rw [same] at renamed
  exact renamed

end ReversePolish
