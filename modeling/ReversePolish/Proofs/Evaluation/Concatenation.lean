import ReversePolish.Proofs.Evaluation.Idle
import ReversePolish.Proofs.Text.Words

/-!
Evaluating one expression after another.

Two expressions with blanks between them are evaluated as one by evaluating the first and then, if
all of its tokens were handled, the second. If the first stops at a token, whether it halts or
fails, the second does not matter at all.

The proof is about the run of tokens inside an evaluation. `advance` is the world behind tokens that
all proceed, and `runTokens` over two lists is a run over the second from there. In between, one
evaluation ends and another starts; the record of the context (`Record.underway`) says that nothing
but the last token tells this from no pause at all, and the next token overwrites that.
-/

namespace ReversePolish

/-- The world behind tokens that all proceed; `none` if one of them halts or fails. -/
def advance (evaluate : Evaluator) (id : Nat) (strict : Bool) : List String → World → Option World
  | [], w => some w
  | token :: rest, w =>
    match stepToken evaluate id strict token w with
    | (w₁, .proceed) => advance evaluate id strict rest w₁
    | _ => none

/-- A reply with the position of a failure moved by `n` tokens. -/
def Reply.shift (n : Nat) : Reply → Reply
  | .failed fault => .failed { fault with position := n + fault.position }
  | reply => reply

/-- Whether the last evaluation of a context was stopped by an operator, successfully. -/
def World.isHalted (w : World) (id : Nat) : Bool :=
  (w.get? id).any Context.halted

theorem Context.record_look {c : Context} {last : String} (underway : c.record = .underway last)
    (token : String) : (c.look token).record = .underway token := by
  rw [Context.record, Record.underway, Record.mk.injEq] at underway ⊢
  exact ⟨underway.1, underway.2.1, rfl, underway.2.2.2⟩

section Run

variable {evaluate : Evaluator} {id : Nat} {strict : Bool}

/-! ## Two lists of tokens -/

theorem runTokens_append_of_advance {xs : List String} {w w₁ : World}
    (through : advance evaluate id strict xs w = some w₁) (position : Nat) (ys : List String) :
    runTokens evaluate id strict position (xs ++ ys) w =
      runTokens evaluate id strict (position + xs.length) ys w₁ := by
  induction xs generalizing position w with
  | nil =>
      cases through
      rfl
  | cons token xs ih =>
      rw [List.cons_append, runTokens_cons]
      unfold advance at through
      split at through
      · rename_i w₂ stepped
        rw [stepped]
        dsimp only
        rw [ih through, List.length_cons, Nat.add_right_comm, Nat.add_assoc]
      · cases through

theorem runTokens_of_advance {xs : List String} {w w₁ : World}
    (through : advance evaluate id strict xs w = some w₁) (position : Nat) :
    runTokens evaluate id strict position xs w = (w₁, .ok) := by
  have whole := runTokens_append_of_advance through position []
  rwa [List.append_nil] at whole

theorem runTokens_append_of_stop {xs : List String} {w : World}
    (stop : advance evaluate id strict xs w = none) (position : Nat) (ys : List String) :
    runTokens evaluate id strict position (xs ++ ys) w =
      runTokens evaluate id strict position xs w := by
  induction xs generalizing position w with
  | nil => cases stop
  | cons token xs ih =>
      rw [List.cons_append, runTokens_cons, runTokens_cons]
      unfold advance at stop
      split at stop
      · rename_i w₁ stepped
        rw [stepped]
        exact ih stop (position + 1)
      · rename_i other
        -- The step is one of the two that end a run, and both runs end alike.
        cases stepped : stepToken evaluate id strict token w with
        | mk w₁ outcome =>
            cases outcome with
            | proceed => exact absurd stepped (other w₁)
            | halt => rfl
            | fail reason => rfl

theorem runTokens_shift (n position : Nat) (xs : List String) (w : World) :
    runTokens evaluate id strict (n + position) xs w =
      ((runTokens evaluate id strict position xs w).1,
        (runTokens evaluate id strict position xs w).2.shift n) := by
  induction xs generalizing position w with
  | nil => rfl
  | cons token xs ih =>
      rw [runTokens_cons, runTokens_cons]
      cases stepToken evaluate id strict token w with
      | mk w₁ outcome =>
          cases outcome with
          | proceed => exact ih (position + 1) w₁
          | halt => rfl
          | fail reason => rfl

/-- What the last token was is forgotten with the next. -/
theorem stepToken_setLastToken {w : World} {c : Context} (present : w.get? id = some c)
    (last token : String) :
    stepToken evaluate id strict token (w.put id (c.look last)) =
      stepToken evaluate id strict token w := by
  unfold stepToken
  rw [World.modify_put present, World.modify_eq_put present]
  rfl

/-! ## The record of the context -/

variable (inner : evaluate.Keeps)
include inner

theorem stepToken_underway {w : World} {c : Context} {last : String}
    (present : w.get? id = some c) (underway : c.record = .underway last) (token : String) :
    ∃ c₁, (stepToken evaluate id strict token w).1.get? id = some c₁ ∧
      c₁.record = .underway token := by
  have looked : (w.put id (c.look token)).get? id = some (c.look token) :=
    World.get?_put_self present
  have record : (c.look token).record = .underway token := Context.record_look underway token
  have keeps := (callHook_keeps inner id token (w.put id (c.look token))).trans
    (handleToken_keeps inner id strict token _)
  obtain ⟨c₁, present₁, record₁⟩ := keeps.held looked (congrArg Record.busy record)
  unfold stepToken
  rw [World.modify_eq_put present]
  exact ⟨c₁, present₁, record₁.trans record⟩

theorem advance_underway {xs : List String} {w w₁ : World} {c : Context} {last : String}
    (present : w.get? id = some c) (underway : c.record = .underway last)
    (through : advance evaluate id strict xs w = some w₁) :
    ∃ c₁, w₁.get? id = some c₁ ∧ c₁.record = .underway (xs.getLastD last) := by
  induction xs generalizing w c last with
  | nil =>
      cases through
      exact ⟨c, present, underway⟩
  | cons token xs ih =>
      obtain ⟨c₂, present₂, underway₂⟩ := stepToken_underway inner present underway token
      unfold advance at through
      split at through
      · rename_i w₂ stepped
        rw [stepped] at present₂
        rw [List.getLastD_cons]
        exact ih present₂ underway₂ through
      · cases through

/-- A run that stops at a token says so, by its reply or in the record of the context. -/
theorem runTokens_of_stop {xs : List String} {w : World} {c : Context} {last : String}
    (present : w.get? id = some c) (underway : c.record = .underway last)
    (stop : advance evaluate id strict xs w = none) (position : Nat) :
    (runTokens evaluate id strict position xs w).2 ≠ .ok ∨
      (runTokens evaluate id strict position xs w).1.isHalted id = true := by
  induction xs generalizing w c last position with
  | nil => cases stop
  | cons token xs ih =>
      obtain ⟨c₁, present₁, underway₁⟩ := stepToken_underway inner present underway token
      rw [runTokens_cons]
      unfold advance at stop
      cases stepped : stepToken evaluate id strict token w with
      | mk w₁ outcome =>
          rw [stepped] at stop present₁
          cases outcome with
          | proceed => exact ih present₁ underway₁ stop (position + 1)
          | halt =>
              right
              dsimp only
              rw [World.modify_eq_put present₁, World.isHalted, World.get?_put_self present₁]
              rfl
          | fail reason =>
              left
              intro ok
              cases ok

end Run

/-! ## Whole evaluations -/

/-- The end of one evaluation and the start of the next leave only the last token blank. -/
theorem Context.start_release {c : Context} {last : String} (underway : c.record = .underway last) :
    c.release.start = c.look "" := by
  rw [Context.record, Record.underway, Record.mk.injEq] at underway
  obtain ⟨status, halted, -, busy, -⟩ := underway
  unfold Context.start Context.release Context.look
  rw [← status, ← halted, ← busy]

/-- An evaluation that follows upon another one. -/
theorem evaluateAt_succ_of_underway {w : World} {id : Nat} {c : Context} {last : String} (n : Nat)
    (present : w.get? id = some c) (underway : c.record = .underway last) (input : String)
    (strict : Bool) :
    evaluateAt (n + 1) (w.modify id Context.release) id input strict =
      finish id
        (runTokens (evaluateAt n) id strict 0 (Token.tokenize input) (w.put id (c.look ""))) := by
  have released : (w.put id c.release).get? id = some c.release := World.get?_put_self present
  have isOpen : c.release.closed = false := congrArg Record.closed underway
  rw [World.modify_eq_put present, evaluateAt_succ_of_idle n released isOpen rfl,
    World.put_put, Context.start_release underway]

theorem World.isHalted_release (w : World) (id : Nat) :
    (w.modify id Context.release).isHalted id = w.isHalted id := by
  cases present : w.get? id with
  | none =>
      unfold World.modify
      rw [present]
  | some c =>
      unfold World.isHalted
      rw [World.modify_eq_put present, World.get?_put_self present, present]
      rfl

section Whole

variable {w : World} {id : Nat} {c : Context} {n : Nat} {a b input : String} {strict : Bool}
  (length : w.contexts.length = n + 1) (present : w.get? id = some c)
  (isOpen : c.closed = false) (idle : c.busy = false)
  (tokens : Token.tokenize input = Token.tokenize a ++ Token.tokenize b)
include length present isOpen idle tokens

/-- The case that a token of the first expression stops the run. -/
theorem evaluate_append_of_stop
    (stop : advance (evaluateAt n) id strict (Token.tokenize a) (w.put id c.start) = none) :
    w.evaluate id input strict = w.evaluate id a strict ∧
      ((w.evaluate id a strict).2 ≠ .ok ∨ (w.evaluate id a strict).1.isHalted id = true) := by
  have started : (w.put id c.start).get? id = some c.start := World.get?_put_self present
  unfold World.evaluate
  rw [length, evaluateAt_succ_of_idle n present isOpen idle,
    evaluateAt_succ_of_idle n present isOpen idle, tokens, runTokens_append_of_stop stop]
  unfold finish
  rw [World.isHalted_release]
  exact ⟨rfl, runTokens_of_stop (evaluateAt_keeps n) started (c.record_start isOpen) stop 0⟩

/-- The case that all tokens of the first expression proceed. -/
theorem evaluate_append_of_advance {w₁ : World}
    (through : advance (evaluateAt n) id strict (Token.tokenize a) (w.put id c.start) = some w₁) :
    (w.evaluate id a strict).2 = .ok ∧ (w.evaluate id a strict).1.isHalted id = false ∧
      (w.evaluate id input strict).2 =
        ((w.evaluate id a strict).1.evaluate id b strict).2.shift (Token.tokenize a).length ∧
      (w.evaluate id input strict).1 =
        if Token.tokenize b = [] then
          ((w.evaluate id a strict).1.evaluate id b strict).1.modify id
            (Context.look ((Token.tokenize a).getLastD ""))
        else ((w.evaluate id a strict).1.evaluate id b strict).1 := by
  have started : (w.put id c.start).get? id = some c.start := World.get?_put_self present
  obtain ⟨c₁, present₁, underway₁⟩ :=
    advance_underway (evaluateAt_keeps n) started (c.record_start isOpen) through
  have first : w.evaluate id a strict = (w₁.modify id Context.release, .ok) := by
    unfold World.evaluate
    rw [length, evaluateAt_succ_of_idle n present isOpen idle, runTokens_of_advance through]
    rfl
  have sameLength : (w₁.modify id Context.release).contexts.length = n + 1 := by
    have keeps : w.Keeps (w.evaluate id a strict).1 := evaluateAt_keeps _ w id a strict
    rw [first] at keeps
    exact keeps.length.trans length
  have second : (w₁.modify id Context.release).evaluate id b strict =
      finish id
        (runTokens (evaluateAt n) id strict 0 (Token.tokenize b) (w₁.put id (c₁.look ""))) := by
    unfold World.evaluate
    rw [sameLength, evaluateAt_succ_of_underway n present₁ underway₁]
  have whole : w.evaluate id input strict =
      finish id
        (runTokens (evaluateAt n) id strict (Token.tokenize a).length (Token.tokenize b) w₁) := by
    unfold World.evaluate
    rw [length, evaluateAt_succ_of_idle n present isOpen idle, tokens,
      runTokens_append_of_advance through, Nat.zero_add]
  have running : (w₁.modify id Context.release).isHalted id = false := by
    rw [World.isHalted_release, World.isHalted, present₁]
    exact congrArg Record.halted underway₁
  rw [first, second, whole]
  refine ⟨rfl, running, ?_⟩
  cases rest : Token.tokenize b with
  | nil =>
      -- Nothing is left to run; only the last token tells the two sides apart.
      have last : c₁.lastToken = (Token.tokenize a).getLastD "" :=
        congrArg Record.lastToken underway₁
      refine ⟨rfl, ?_⟩
      rw [if_pos rfl]
      simp only [runTokens, finish]
      rw [World.modify_put present₁, World.modify_put present₁, World.modify_eq_put present₁,
        ← last]
      rfl
  | cons token ts =>
      have unpaused :
          runTokens (evaluateAt n) id strict 0 (token :: ts) (w₁.put id (c₁.look "")) =
            runTokens (evaluateAt n) id strict 0 (token :: ts) w₁ := by
        rw [runTokens_cons, runTokens_cons, stepToken_setLastToken present₁]
      have shifted := @runTokens_shift (evaluateAt n) id strict (Token.tokenize a).length 0
        (token :: ts) w₁
      rw [Nat.add_zero] at shifted
      rw [if_neg (List.cons_ne_nil token ts), unpaused, shifted]
      exact ⟨rfl, rfl⟩

end Whole

/-- Evaluating two expressions with blanks between them is evaluating the first and, unless it stops
at a token, then the second. The last token is that of the first expression if the second has
none. -/
theorem evaluate_append {w : World} {id : Nat} {c : Context} (present : w.get? id = some c)
    (isOpen : c.closed = false) (idle : c.busy = false) {gap : String} (nonempty : gap ≠ "")
    (blank : ∀ ch ∈ gap.toList, Text.isBlank ch = true) (a b : String) (strict : Bool) :
    let first := w.evaluate id a strict
    let second := first.1.evaluate id b strict
    let whole := w.evaluate id (a ++ gap ++ b) strict
    (first.2 = .ok → first.1.isHalted id = false →
      whole.2 = second.2.shift (Token.tokenize a).length ∧
        whole.1 =
          if Token.tokenize b = [] then
            second.1.modify id (fun c => { c with lastToken := (Token.tokenize a).getLastD "" })
          else second.1) ∧
      (first.2 ≠ .ok ∨ first.1.isHalted id = true → whole = first) := by
  intro first second whole
  obtain ⟨n, length⟩ := World.length_eq_succ present
  have tokens : Token.tokenize (a ++ gap ++ b) = Token.tokenize a ++ Token.tokenize b :=
    Text.words_append_blank nonempty blank a b
  cases through : advance (evaluateAt n) id strict (Token.tokenize a) (w.put id c.start) with
  | none =>
      obtain ⟨same, stopped⟩ :=
        evaluate_append_of_stop length present isOpen idle tokens through
      refine ⟨fun ok running => ?_, fun _ => same⟩
      rcases stopped with failed | halted
      · exact absurd ok failed
      · exact absurd (running.symm.trans halted) Bool.false_ne_true
  | some w₁ =>
      obtain ⟨ok, running, reply, world⟩ :=
        evaluate_append_of_advance length present isOpen idle tokens through
      refine ⟨fun _ _ => ⟨reply, world⟩, fun stopped => ?_⟩
      rcases stopped with failed | halted
      · exact absurd ok failed
      · exact absurd (running.symm.trans halted) Bool.false_ne_true

/-- A context whose hook evaluates on another one, and closes that one, before each token. -/
def watchedWorld : World :=
  World.new
    [{ hook := some (.script "seen" [.on (some 1) (.evaluate "5" false), .on (some 1) .close]) },
      {}]

theorem evaluate_append_watched :
    let first := watchedWorld.evaluate 0 "1 2" true
    let second := first.1.evaluate 0 "3" true
    let whole := watchedWorld.evaluate 0 "1 2\t 3" true
    first.2 = .ok ∧ first.1.isHalted 0 = false ∧
      whole.2 = second.2.shift 2 ∧ whole.1 = second.1 := by
  intro first second whole
  have ok : first.2 = .ok := by rfl
  have running : first.1.isHalted 0 = false := by rfl
  have two : Token.tokenize "1 2" = ["1", "2"] := by decide +kernel
  have one : Token.tokenize "3" = ["3"] := by decide +kernel
  have blank : ∀ c ∈ "\t ".toList, Text.isBlank c = true := List.all_eq_true.mp (by decide)
  obtain ⟨reply, world⟩ := (@evaluate_append watchedWorld 0 _ rfl rfl rfl "\t " (by decide) blank
    "1 2" "3" true).1 ok running
  rw [two] at reply
  rw [one] at world
  exact ⟨ok, running, reply, world⟩

end ReversePolish
