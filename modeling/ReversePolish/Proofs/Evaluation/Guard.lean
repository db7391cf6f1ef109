import ReversePolish.Proofs.Evaluation.World

/-!
What calls leave of a context that is busy.

A context that is busy refuses to evaluate and to close, so no call that is made meanwhile, by
whichever callback and on whichever context, touches its record: how its evaluation stands, the
token it looks at, and its two flags. `World.Keeps` says this of the worlds before and after
something, and every part of an evaluation is shown to keep it, provided that the evaluations inside
do; `evaluateAt_keeps` closes the circle.
-/

namespace ReversePolish

/-- How the evaluation of a context stands, and whether the context takes another. -/
structure Record where
  status : Status
  halted : Bool
  lastToken : String
  busy : Bool
  closed : Bool

def Context.record (c : Context) : Record :=
  ⟨c.status, c.halted, c.lastToken, c.busy, c.closed⟩

/-- The record while an evaluation is on its way, at a token. -/
def Record.underway (token : String) : Record :=
  ⟨.ok, false, token, true, false⟩

theorem Context.record_start (c : Context) (isOpen : c.closed = false) :
    c.start.record = .underway "" := by
  unfold Context.record Context.start Record.underway
  rw [isOpen]

/-- There are as many contexts as before, and the busy ones have their records. -/
structure World.Keeps (w w' : World) : Prop where
  length : w'.contexts.length = w.contexts.length
  held : ∀ {j : Nat} {c : Context}, w.get? j = some c → c.busy = true →
    ∃ c', w'.get? j = some c' ∧ c'.record = c.record

/-- As `World.Keeps`, for all contexts but one. -/
structure World.KeepsBut (id : Nat) (w w' : World) : Prop where
  length : w'.contexts.length = w.contexts.length
  held : ∀ {j : Nat} {c : Context}, j ≠ id → w.get? j = some c → c.busy = true →
    ∃ c', w'.get? j = some c' ∧ c'.record = c.record

/-- An evaluation that leaves the records of busy contexts alone. -/
def Evaluator.Keeps (evaluate : Evaluator) : Prop :=
  ∀ (w : World) (id : Nat) (input : String) (strict : Bool),
    w.Keeps (evaluate w id input strict).1

namespace World

variable {w w₁ w₂ : World} {id : Nat} {c d : Context}

theorem Keeps.refl (w : World) : w.Keeps w :=
  ⟨rfl, fun present _ => ⟨_, present, rfl⟩⟩

theorem Keeps.trans (left : w.Keeps w₁) (right : w₁.Keeps w₂) : w.Keeps w₂ where
  length := right.length.trans left.length
  held := by
    intro j c present busy
    obtain ⟨c₁, present₁, record₁⟩ := left.held present busy
    have busy₁ : c₁.busy = true := (congrArg Record.busy record₁).trans busy
    obtain ⟨c₂, present₂, record₂⟩ := right.held present₁ busy₁
    exact ⟨c₂, present₂, record₂.trans record₁⟩

theorem Keeps.but (keeps : w.Keeps w₁) (id : Nat) : KeepsBut id w w₁ :=
  ⟨keeps.length, fun _ present busy => keeps.held present busy⟩

theorem KeepsBut.trans (left : KeepsBut id w w₁) (right : KeepsBut id w₁ w₂) :
    KeepsBut id w w₂ where
  length := right.length.trans left.length
  held := by
    intro j c ne present busy
    obtain ⟨c₁, present₁, record₁⟩ := left.held ne present busy
    have busy₁ : c₁.busy = true := (congrArg Record.busy record₁).trans busy
    obtain ⟨c₂, present₂, record₂⟩ := right.held ne present₁ busy₁
    exact ⟨c₂, present₂, record₂.trans record₁⟩

/-- Nothing is owed to a context that is not busy. -/
theorem KeepsBut.keeps (but : KeepsBut id w w₁) (present : w.get? id = some c)
    (idle : c.busy = false) : w.Keeps w₁ where
  length := but.length
  held := by
    intro j d there busy
    by_cases same : j = id
    · subst same
      rw [present, Option.some.injEq] at there
      rw [← there, idle] at busy
      cases busy
    · exact but.held same there busy

theorem keeps_note (w : World) (e : Event) : w.Keeps (w.note e) :=
  ⟨rfl, fun present _ => ⟨_, present, rfl⟩⟩

theorem keepsBut_put (w : World) (id : Nat) (d : Context) : KeepsBut id w (w.put id d) where
  length := length_put w id d
  held := fun ne present _ => ⟨_, (get?_put_ne ne).trans present, rfl⟩

theorem keepsBut_modify (w : World) (id : Nat) (f : Context → Context) :
    KeepsBut id w (w.modify id f) where
  length := length_modify w id f
  held := fun ne present _ => ⟨_, (get?_modify_ne ne f).trans present, rfl⟩

/-- A change of a context that leaves its record alone if the context is busy. -/
theorem keeps_put (present : w.get? id = some c) (record : c.busy = true → d.record = c.record) :
    w.Keeps (w.put id d) where
  length := length_put w id d
  held := by
    intro j e there busy
    by_cases same : j = id
    · subst same
      rw [present, Option.some.injEq] at there
      subst there
      exact ⟨d, get?_put_self present, record busy⟩
    · exact ⟨e, (get?_put_ne same).trans there, rfl⟩

end World

/-- A context that looks at a token. -/
def Context.look (token : String) (c : Context) : Context :=
  { c with lastToken := token }

/-- Handle one token from the moment it is looked at. -/
def stepToken (evaluate : Evaluator) (id : Nat) (strict : Bool) (token : String) (w : World) :
    World × Outcome :=
  handleToken evaluate id strict token
    (callHook evaluate id token (w.modify id (Context.look token)))

theorem runTokens_cons (evaluate : Evaluator) (id : Nat) (strict : Bool) (position : Nat)
    (token : String) (rest : List String) (w : World) :
    runTokens evaluate id strict position (token :: rest) w =
      match stepToken evaluate id strict token w with
      | (w₁, .proceed) => runTokens evaluate id strict (position + 1) rest w₁
      | (w₁, .halt) => (w₁.modify id (fun c => { c with halted := true }), .ok)
      | (w₁, .fail reason) =>
        (w₁.modify id (fun c => { c with status := failureReason reason }),
          .failed ⟨failureReason reason, token, position⟩) := rfl

/-- Without a hook, looking at a token is all that comes before it is handled. -/
theorem stepToken_of_unwatched {w : World} {id : Nat} {c : Context} (evaluate : Evaluator)
    (present : w.get? id = some c) (unwatched : c.hook = none) (unshared : w.sharedHook = none)
    (strict : Bool) (token : String) :
    stepToken evaluate id strict token w =
      handleToken evaluate id strict token (w.put id (c.look token)) := by
  have still : (c.look token).hook = none := unwatched
  unfold stepToken
  rw [World.modify_eq_put present, callHook, World.get?_put_self present]
  dsimp only
  rw [still, World.sharedHook_put, unshared]
  rfl

/-- A builtin that has an effect changes the stack of its context, and nothing else. -/
theorem callOperator_builtin {evaluate : Evaluator} {w : World} {id : Nat} {c : Context}
    {b : Builtin} {effect : Effect} (run : b.run? c.settings c.stack = some effect) :
    callOperator evaluate id c (.builtin b) w =
      (w.put id { c with stack := effect.stack }, effect.outcome) := by
  unfold callOperator
  dsimp only
  rw [run]

/-- A token that calls no operator pushes the variable to which it refers. If this variable is not
set, the mode decides. -/
theorem handleToken_of_reference {w : World} {id : Nat} {c : Context} {token name : String}
    (present : w.get? id = some c) (literal : Token.isLiteral token = false)
    (unlisted : c.operators.lookup? token = none)
    (refers : Token.variableName? token = some name) (evaluate : Evaluator) (strict : Bool) :
    handleToken evaluate id strict token w =
      match c.vars.get? name with
      | some v => (w.put id (c.push v), .proceed)
      | none =>
        if strict then (w, .fail .unknownToken) else (w.put id (c.push 0), .proceed) := by
  unfold handleToken
  cases value : c.vars.get? name with
  | none => simp only [present, literal, unlisted, refers, value, Bool.false_eq_true, if_false]
  | some v => simp only [present, literal, unlisted, refers, value, Bool.false_eq_true, if_false]

/-! ## Calls and scripts -/

/-- On its own context, closing is the only call that touches the record. -/
theorem Context.perform_record (c : Context) {call : Call} (other : call ≠ .close) :
    (c.perform call).1.record = c.record := by
  cases call with
  | pop =>
      simp only [Context.perform]
      split <;> rfl
  | peek i =>
      simp only [Context.perform]
      split <;> rfl
  | store name =>
      simp only [Context.perform]
      split <;> rfl
  | register name arity callback =>
      simp only [Context.perform]
      split <;> rfl
  | hook shared hook => cases shared <;> rfl
  | close => exact absurd rfl other
  | _ => rfl

theorem Context.close_record (c : Context) (busy : c.busy = true) :
    c.close.1.record = c.record := by
  unfold Context.close
  rw [if_pos busy]
  split <;> rfl

section Parts

variable {evaluate : Evaluator} (inner : evaluate.Keeps)
include inner

theorem perform_keeps (w : World) (id : Nat) (call : Call) :
    w.Keeps (perform evaluate w id call).1 := by
  unfold perform
  cases present : w.get? id with
  | none => exact .refl w
  | some c =>
      have alone {call : Call} (other : call ≠ .close) : w.Keeps (w.put id (c.perform call).1) :=
        World.keeps_put present (fun _ => c.perform_record other)
      cases call with
      | evaluate input strict => exact inner w id input strict
      | close => exact World.keeps_put present c.close_record
      | hook shared hook =>
          cases shared with
          | true => exact ⟨rfl, fun there _ => ⟨_, there, rfl⟩⟩
          | false => exact alone (by rintro ⟨⟩)
      | _ => exact alone (by rintro ⟨⟩)

theorem runScript_keeps (self : Nat) (body : List Step) (w : World) :
    w.Keeps (runScript evaluate self body w) := by
  induction body generalizing w with
  | nil => exact .refl w
  | cons step body ih =>
      obtain ⟨target, call⟩ := step
      have first := perform_keeps inner w (target.getD self) call
      exact (first.trans (World.keeps_note _ _)).trans (ih _)

theorem callHook_keeps (id : Nat) (token : String) (w : World) :
    w.Keeps (callHook evaluate id token w) := by
  unfold callHook
  split
  · exact .refl w
  · split
    · exact .refl w
    · exact World.keeps_note w _
    · exact (World.keeps_note w _).trans (runScript_keeps inner _ _ _)

theorem callOperator_keeps {id : Nat} {c : Context} {w : World} (present : w.get? id = some c)
    (op : Operator) : w.Keeps (callOperator evaluate id c op w).1 := by
  unfold callOperator
  split
  · split
    · exact World.keeps_put present (fun _ => rfl)
    · exact World.keeps_note w _
  · exact runScript_keeps inner _ _ w

theorem handleToken_keeps (id : Nat) (strict : Bool) (token : String) (w : World) :
    w.Keeps (handleToken evaluate id strict token w).1 := by
  unfold handleToken
  split
  · exact .refl w
  · rename_i c present
    have pushed (v : Value) : w.Keeps (w.put id (c.push v)) :=
      World.keeps_put present (fun _ => rfl)
    split
    · exact pushed _
    · split
      · split
        · exact .refl w
        · exact callOperator_keeps inner present _
      · split
        · exact .refl w
        · split
          · exact pushed _
          · split
            · exact .refl w
            · exact pushed _

/-! ## Tokens and evaluations -/

theorem stepToken_keepsBut (id : Nat) (strict : Bool) (token : String) (w : World) :
    World.KeepsBut id w (stepToken evaluate id strict token w).1 :=
  (World.keepsBut_modify w id _).trans
    (((callHook_keeps inner id token _).trans (handleToken_keeps inner id strict token _)).but id)

theorem runTokens_keepsBut (id : Nat) (strict : Bool) (position : Nat) (tokens : List String)
    (w : World) : World.KeepsBut id w (runTokens evaluate id strict position tokens w).1 := by
  induction tokens generalizing position w with
  | nil => exact (World.Keeps.refl w).but id
  | cons token rest ih =>
      have first := stepToken_keepsBut inner id strict token w
      rw [runTokens_cons]
      split
      · rename_i w₁ stepped
        rw [stepped] at first
        exact first.trans (ih _ w₁)
      · rename_i w₁ stepped
        rw [stepped] at first
        exact first.trans (World.keepsBut_modify w₁ id _)
      · rename_i w₁ reason stepped
        rw [stepped] at first
        exact first.trans (World.keepsBut_modify w₁ id _)

theorem evaluateWith_keeps : (evaluateWith evaluate).Keeps := by
  intro w id input strict
  unfold evaluateWith
  cases present : w.get? id with
  | none => exact .refl w
  | some c =>
      dsimp only
      split
      · exact .refl w
      · split
        · exact .refl w
        · rename_i idle
          have run := runTokens_keepsBut inner id strict 0 (Token.tokenize input)
            (w.put id c.start)
          have whole := ((World.keepsBut_put w id c.start).trans run).trans
            (World.keepsBut_modify _ id Context.release)
          exact whole.keeps present (Bool.eq_false_iff.mpr idle)

end Parts

theorem refuseEvaluation_keeps : Evaluator.Keeps refuseEvaluation := by
  intro w id input strict
  unfold refuseEvaluation
  split
  · exact .refl w
  · split <;> exact .refl w

/-- No evaluation touches the record of a busy context. -/
theorem evaluateAt_keeps (n : Nat) : (evaluateAt n).Keeps := by
  induction n with
  | zero => exact refuseEvaluation_keeps
  | succ n ih => exact evaluateWith_keeps ih

end ReversePolish
