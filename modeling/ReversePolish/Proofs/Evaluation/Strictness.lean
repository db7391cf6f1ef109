import ReversePolish.Proofs.Evaluation.Verdict
import ReversePolish.Proofs.Token

/-!
Strict and lenient evaluations.

The mode of an evaluation is asked for in one place: at a reference to a variable that is not set,
with no operator of that name. So a strict and a lenient evaluation of one expression are the same
token by token, callbacks and all, until one of them comes to such a token; there the strict one
fails, and the lenient one pushes zero and goes on (`Parting`).

`handleToken_modes` says so for a token and `runTokens_modes` for a run. What callbacks do in
between does not matter, because both runs are in one world up to there. That no operator has the
name of the token is more than that none is found under it: it holds wherever the registries are
indexed as they should be, which nothing that happens in a run can change
(`World.Indexed.of_reach`).
-/

namespace ReversePolish

/-! ## Registries along a run -/

/-- Under the name of an operator, one is found. -/
theorem Registry.Indexed.not_mem_names {hash : String → UInt64} {r : Registry hash}
    (indexed : r.Indexed) {name : String} (unlisted : r.lookup? name = none) : name ∉ r.names := by
  intro listed
  obtain ⟨i, found⟩ := Option.isSome_iff_exists.mp ((indexed.isSome_find?_iff name).mpr listed)
  have answers := indexed.find?_answers name
  rw [found] at answers
  have bound : i < r.entries.length := by
    have place := answers.lt_length
    rwa [names, List.length_map] at place
  rw [lookup?, found, Option.bind_some, List.getElem?_eq_getElem bound] at unlisted
  cases unlisted

/-- The registries of all contexts are indexed. -/
def World.Indexed (w : World) : Prop :=
  ∀ {j : Nat} {c : Context}, w.get? j = some c → c.operators.Indexed

theorem Context.perform_indexed {c : Context} (indexed : c.operators.Indexed) (call : Call) :
    (c.perform call).1.operators.Indexed := by
  cases call with
  | pop =>
      simp only [Context.perform]
      split <;> exact indexed
  | peek i =>
      simp only [Context.perform]
      split <;> exact indexed
  | store name =>
      simp only [Context.perform]
      split <;> exact indexed
  | register name arity callback =>
      simp only [Context.perform]
      rcases c.operators.register_cases name arity callback with
        ⟨error, refused⟩ | ⟨body, -, accepted⟩
      · rw [refused]
        exact indexed
      · rw [accepted]
        exact indexed.insert _
  | clearOperators => exact Registry.empty_indexed _
  | hook shared hook => cases shared <;> exact indexed
  | close =>
      show c.close.1.operators.Indexed
      unfold Context.close
      split
      · exact indexed
      · split
        · exact indexed
        · exact Registry.empty_indexed _
  | _ => exact indexed

theorem World.indexed_new (options : List ContextOptions) : (World.new options).Indexed := by
  intro j c there
  obtain ⟨o, rfl⟩ := World.get?_new there
  exact Context.startingOperators_indexed o

theorem World.Indexed.moves {conf next : Conf} (indexed : conf.world.Indexed)
    (step : Moves conf next) : next.world.Indexed := by
  intro j d there
  obtain ⟨c, present, alters⟩ := step.alters there
  have table := indexed present
  cases alters with
  | called issued direct => exact Context.perform_indexed table _
  | _ => exact table

theorem World.Indexed.of_reach {conf next : Conf} (indexed : conf.world.Indexed)
    (reached : Reach conf next) : next.world.Indexed := by
  induction reached with
  | refl => exact indexed
  | tail before step ih => exact ih.moves step

/-! ## Tokens at which the mode matters -/

/-- A token that refers to a variable of a context that is not set, and that calls no operator. -/
structure Context.Lacks (c : Context) (token name : String) : Prop where
  reference : token = Token.reference name
  named : name ≠ ""
  unlisted : c.operators.lookup? token = none
  unset : c.vars.get? name = none

theorem Token.reference_of_variableName? {token name : String}
    (refers : variableName? token = some name) : token = reference name ∧ name ≠ "" := by
  unfold variableName? at refers
  split at refers
  · rename_i c rest chars
    cases refers
    constructor
    · rw [← String.toList_inj, toList_reference, chars, String.toList_ofList]
      rfl
    · intro empty
      rw [String.ofList_eq_empty_iff] at empty
      cases empty
  · cases refers

/-- A token is handled alike in both modes, or it refers to a variable that is not set. -/
theorem handleToken_modes (evaluate : Evaluator) (id : Nat) (token : String) (w : World) :
    handleToken evaluate id true token w = handleToken evaluate id false token w ∨
      ∃ c name, w.get? id = some c ∧ c.Lacks token name ∧
        handleToken evaluate id true token w = (w, .fail .unknownToken) ∧
        handleToken evaluate id false token w = (w.put id (c.push 0), .proceed) := by
  unfold handleToken
  cases present : w.get? id with
  | none => exact .inl rfl
  | some c =>
      dsimp only
      cases literal : Token.isLiteral token with
      | true => exact .inl rfl
      | false =>
          cases found : c.operators.lookup? token with
          | some op => exact .inl rfl
          | none =>
              cases refers : Token.variableName? token with
              | none => exact .inl rfl
              | some name =>
                  dsimp only
                  cases value : c.vars.get? name with
                  | some v => exact .inl rfl
                  | none =>
                      obtain ⟨reference, named⟩ := Token.reference_of_variableName? refers
                      exact .inr ⟨c, name, rfl, ⟨reference, named, found, value⟩, rfl, rfl⟩

/-! ## Runs -/

section Run

variable {evaluate : Evaluator} {id : Nat}

/-- Tokens that both modes handle alike, up to the first that they do not: both modes come to it in
the world `w₀`, and its hook leaves the world `w₁` and the context `c₁`. -/
structure PartsAt (evaluate : Evaluator) (id : Nat) (w : World) (before : List String)
    (token name : String) (w₀ w₁ : World) (c₁ : Context) : Prop where
  through : ∀ strict, advance evaluate id strict before w = some w₀
  watched : callHook evaluate id token (w₀.modify id (Context.look token)) = w₁
  present : w₁.get? id = some c₁
  lacks : c₁.Lacks token name
  refused : stepToken evaluate id true token w₀ = (w₁, .fail .unknownToken)
  pushed : stepToken evaluate id false token w₀ = (w₁.put id (c₁.push 0), .proceed)

theorem PartsAt.cons {first token name : String} {before : List String} {w w' w₀ w₁ : World}
    {c₁ : Context} (parts : PartsAt evaluate id w' before token name w₀ w₁ c₁)
    (stepped : ∀ strict, stepToken evaluate id strict first w = (w', .proceed)) :
    PartsAt evaluate id w (first :: before) token name w₀ w₁ c₁ where
  through strict := by
    rw [advance, stepped strict]
    exact parts.through strict
  watched := parts.watched
  present := parts.present
  lacks := parts.lacks
  refused := parts.refused
  pushed := parts.pushed

/-- A run is the same in both modes, or the modes part at one of its tokens. -/
theorem runTokens_modes (tokens : List String) (position : Nat) (w : World) :
    runTokens evaluate id true position tokens w = runTokens evaluate id false position tokens w ∨
      ∃ before token name rest w₀ w₁ c₁, tokens = before ++ token :: rest ∧
        PartsAt evaluate id w before token name w₀ w₁ c₁ := by
  induction tokens generalizing position w with
  | nil => exact .inl rfl
  | cons token rest ih =>
      rcases handleToken_modes evaluate id token
          (callHook evaluate id token (w.modify id (Context.look token))) with
        same | ⟨c, name, present, lacks, refused, pushed⟩
      · have alike : stepToken evaluate id true token w = stepToken evaluate id false token w :=
          same
        cases stepped : stepToken evaluate id false token w with
        | mk w' outcome =>
            rw [stepped] at alike
            rw [runTokens_cons, runTokens_cons, alike, stepped]
            cases outcome with
            | proceed =>
                have both : ∀ strict, stepToken evaluate id strict token w = (w', .proceed) := by
                  intro strict
                  cases strict
                  · exact stepped
                  · exact alike
                rcases ih (position + 1) w' with equal | ⟨before, other, name, last, w₀, w₁, c₁,
                  rfl, parts⟩
                · exact .inl equal
                · exact .inr ⟨token :: before, other, name, last, w₀, w₁, c₁, rfl, parts.cons both⟩
            | halt => exact .inl rfl
            | fail reason => exact .inl rfl
      · exact .inr ⟨[], token, name, rest, w, _, c, rfl, fun _ => rfl, rfl, present, lacks, refused,
          pushed⟩

/-- A run that starts at a position fails at none before. -/
theorem position_le_of_failed {position : Nat} {tokens : List String} {w : World} {fault : Fault}
    (failed : (runTokens evaluate id false position tokens w).2 = .failed fault) :
    position ≤ fault.position := by
  have shifted := @runTokens_shift evaluate id false position 0 tokens w
  rw [Nat.add_zero] at shifted
  rw [shifted] at failed
  cases reply : (runTokens evaluate id false 0 tokens w).2 with
  | failed inner =>
      rw [reply] at failed
      cases failed
      exact Nat.le_add_right _ _
  | _ =>
      rw [reply] at failed
      cases failed

/-- The moves of an evaluation up to the token behind those that proceed. -/
theorem reach_advance {n : Nat} (strict : Bool) (input : String) {before : List String}
    {w w₀ : World} (through : advance (evaluateAt n) id strict before w = some w₀)
    (enough : w.free.card ≤ n) (rest : List String) (position : Nat) (history : List Answer) :
    w₀.free.card ≤ n ∧
      ∃ answers, Reach ⟨w, [⟨id, input, strict, position, before ++ rest, .next⟩], [], history⟩
        ⟨w₀, [⟨id, input, strict, position + before.length, rest, .next⟩], [], answers⟩ := by
  induction before generalizing w position history with
  | nil =>
      cases through
      exact ⟨enough, history, .refl⟩
  | cons token before ih =>
      obtain ⟨inside, handled⟩ := reach_token (calls_reach n) id input strict position token
        (before ++ rest) [] [] history w enough
      have kept := World.free_stepToken (evaluateAt_keeps n) id strict token w
      have enough₁ := (Finset.card_le_card kept).trans enough
      rw [advance] at through
      generalize stepToken (evaluateAt n) id strict token w = result at *
      obtain ⟨w', outcome⟩ := result
      cases outcome with
      | proceed =>
          obtain ⟨left, answers, others⟩ := ih through enough₁ (position + 1) (inside ++ history)
          refine ⟨left, answers, ?_⟩
          rw [List.length_cons, ← Nat.add_assoc, Nat.add_right_comm]
          exact (handled.tail .proceed).trans others
      | halt => cases through
      | fail reason => cases through

end Run

/-! ## Whole evaluations -/

/-- Where a strict and a lenient evaluation of one expression part. Both come to a token of it in
the same world, and there the token refers to a variable that is not set. The strict one fails at
the token, and the lenient one pushes zero and goes on behind it. -/
structure Parting (w : World) (id : Nat) (input : String) (before : List String)
    (token name : String) (rest : List String) (w₁ : World) (c₁ : Context) : Prop where
  tokens : Token.tokenize input = before ++ token :: rest
  /-- Both evaluations come to the token in one world, and its hook leaves another one. -/
  reached : ∃ w₀, PartsAt (evaluateAt (w.contexts.length - 1)) id (w.modify id Context.start)
    before token name w₀ w₁ c₁
  strict : w.evaluate id input true =
    finish id (w₁.modify id (fun c => { c with status := .unknownToken }),
      .failed ⟨.unknownToken, token, before.length⟩)
  lenient : w.evaluate id input false =
    finish id (runTokens (evaluateAt (w.contexts.length - 1)) id false (before.length + 1) rest
      (w₁.put id (c₁.push 0)))

section Whole

variable {w : World} {id : Nat} {c : Context} (present : w.get? id = some c)
  (isOpen : c.closed = false) (idle : c.busy = false) {input : String}
include present isOpen idle

/-- Where the modes part in the run of the tokens, the evaluations do. -/
theorem PartsAt.parting {before rest : List String} {token name : String} {w₀ w₁ : World}
    {c₁ : Context} (tokens : Token.tokenize input = before ++ token :: rest)
    (parts : PartsAt (evaluateAt (w.contexts.length - 1)) id (w.modify id Context.start) before
      token name w₀ w₁ c₁) : Parting w id input before token name rest w₁ c₁ where
  tokens := tokens
  reached := ⟨w₀, parts⟩
  strict := by
    rw [evaluate_eq_finish_modify present isOpen idle, tokens,
      runTokens_append_of_advance (parts.through true), runTokens_cons, parts.refused,
      Nat.zero_add]
    rfl
  lenient := by
    rw [evaluate_eq_finish_modify present isOpen idle, tokens,
      runTokens_append_of_advance (parts.through false), runTokens_cons, parts.pushed,
      Nat.zero_add]

end Whole

namespace Parting

variable {w w₁ : World} {id : Nat} {input token name : String} {before rest : List String}
  {c₁ : Context}

/-- The lenient evaluation fails behind the token if it fails at all. -/
theorem replies_ne (parting : Parting w id input before token name rest w₁ c₁) :
    (w.evaluate id input true).2 ≠ (w.evaluate id input false).2 := by
  rw [parting.strict, parting.lenient]
  intro same
  have behind := position_le_of_failed same.symm
  exact Nat.not_succ_le_self _ behind

/-- No operator has the name of the token. -/
theorem not_mem_names (parting : Parting w id input before token name rest w₁ c₁)
    {c : Context} (present : w.get? id = some c) (idle : c.busy = false) (indexed : w.Indexed) :
    token ∉ c₁.operators.names := by
  obtain ⟨w₀, parts⟩ := parting.reached
  have fewer := World.card_free_start present idle
  have most := World.card_free_le w
  have started : (w.modify id Context.start).Indexed := by
    intro j d there
    obtain ⟨e, here, rfl⟩ := World.get?_modify_cases there
    have table := indexed here
    split <;> exact table
  have enough : (w.modify id Context.start).free.card ≤ w.contexts.length - 1 := by
    rw [World.modify_eq_put present]
    omega
  obtain ⟨enough₀, answers, arrived⟩ :=
    reach_advance true input (parts.through true) enough (token :: rest) 0 []
  obtain ⟨notes, hooked⟩ := reach_hook (calls_reach (w.contexts.length - 1)) id input true
    (0 + before.length) token rest [] [] answers w₀ enough₀
  have last : w₁.Indexed := by
    rw [← parts.watched]
    exact World.Indexed.of_reach started (arrived.trans hooked)
  exact (last parts.present).not_mem_names parts.lacks.unlisted

end Parting

/-- A strict and a lenient evaluation of an expression from one state have the same reply and reach
the same state, or they part at a token: the strict one fails there, and the lenient one has come to
it in the same state and goes on behind it. -/
theorem evaluate_modes (w : World) (id : Nat) (input : String) :
    w.evaluate id input true = w.evaluate id input false ∨
      ∃ before token name rest w₁ c₁, Parting w id input before token name rest w₁ c₁ ∧
        (w.Indexed → token ∉ c₁.operators.names) ∧
        (w.evaluate id input true).2 ≠ (w.evaluate id input false).2 := by
  cases admitted : w.isIdle id with
  | false =>
      left
      unfold World.evaluate
      rw [evaluateAt_of_not_idle _ admitted, evaluateAt_of_not_idle _ admitted]
      rfl
  | true =>
      obtain ⟨c, present, isOpen, idle⟩ := World.isIdle_iff.mp admitted
      rcases @runTokens_modes (evaluateAt (w.contexts.length - 1)) id
          (Token.tokenize input) 0 (w.modify id Context.start) with
        same | ⟨before, token, name, rest, w₀, w₁, c₁, tokens, parts⟩
      · left
        rw [evaluate_eq_finish_modify present isOpen idle,
          evaluate_eq_finish_modify present isOpen idle, same]
      · right
        have parting := parts.parting present isOpen idle tokens
        exact ⟨before, token, name, rest, w₁, c₁, parting,
          parting.not_mem_names present idle, parting.replies_ne⟩

/-- A context whose hook sets one of two variables before each token. -/
def settingWorld : World :=
  World.new [{ builtins := false, hook := some (.script "seen" [.on none (.set "x" 5)]) }]

/-- That world within an evaluation. -/
def settingWithin (vars : Variables) (stack : List Value) (last : String) (journal : List Event) :
    World :=
  { settingWorld.modify 0 fun c =>
      { c.start with vars := vars, stack := stack, lastToken := last } with journal := journal }

/-- By the time a reference is looked up, the hook has set its variable. -/
theorem stepToken_setting (vars : Variables) (stack : List Value) (last : String)
    (journal : List Event) {token name : String} (literal : Token.isLiteral token = false)
    (refers : Token.variableName? token = some name) :
    ∃ seen, ∀ strict,
      stepToken (evaluateAt 0) 0 strict token (settingWithin vars stack last journal) =
        match (vars.set "x" 5).get? name with
        | some v => (settingWithin (vars.set "x" 5) (v :: stack) token seen, .proceed)
        | none =>
          if strict then (settingWithin (vars.set "x" 5) stack token seen, .fail .unknownToken)
          else (settingWithin (vars.set "x" 5) (0 :: stack) token seen, .proceed) := by
  let seen : List Event :=
    .performed (.set "x" 5) .ok :: .observed "seen" token stack.length :: journal
  have present : (settingWithin (vars.set "x" 5) stack token seen).get? 0 = some _ := rfl
  have unlisted : (Registry.empty .shadow : Registry nameHash).lookup? token = none :=
    (Registry.empty_indexed .shadow).lookup?_eq_none List.not_mem_nil
  exact ⟨seen, handleToken_of_reference present literal unlisted refers _⟩

/-- The variable that the hook sets makes no difference, and the other one does. -/
theorem evaluate_modes_hooked :
    (settingWorld.evaluate 0 "$x $y $x" true).2 = .failed ⟨.unknownToken, "$y", 1⟩ ∧
      (settingWorld.evaluate 0 "$x $y $x" false).2 = .ok ∧
      ∃ before token name rest w₁ c₁,
        Parting settingWorld 0 "$x $y $x" before token name rest w₁ c₁ ∧
          token ∉ c₁.operators.names := by
  have words : Token.tokenize "$x $y $x" = ["$x", "$y", "$x"] := by decide +kernel
  have x : Token.variableName? "$x" = some "x" := rfl
  have y : Token.variableName? "$y" = some "y" := rfl
  let vars : Variables := ⟨[("x", 5)]⟩
  obtain ⟨seen₁, step⟩ := stepToken_setting .empty [] "" [] rfl x
  have first (strict : Bool) :
      stepToken (evaluateAt 0) 0 strict "$x" (settingWithin .empty [] "" []) =
        (settingWithin vars [5] "$x" seen₁, .proceed) := step strict
  obtain ⟨seen₂, step⟩ := stepToken_setting vars [5] "$x" seen₁ rfl y
  have unknown : stepToken (evaluateAt 0) 0 true "$y" (settingWithin vars [5] "$x" seen₁) =
      (settingWithin vars [5] "$y" seen₂, .fail .unknownToken) := step true
  have second : stepToken (evaluateAt 0) 0 false "$y" (settingWithin vars [5] "$x" seen₁) =
      (settingWithin vars [0, 5] "$y" seen₂, .proceed) := step false
  obtain ⟨seen₃, step⟩ := stepToken_setting vars [0, 5] "$y" seen₂ rfl x
  have third : stepToken (evaluateAt 0) 0 false "$x" (settingWithin vars [0, 5] "$y" seen₂) =
      (settingWithin vars [5, 0, 5] "$x" seen₃, .proceed) := step false
  have run (strict : Bool) : settingWorld.evaluate 0 "$x $y $x" strict =
      finish 0 (runTokens (evaluateAt 0) 0 strict 1 ["$y", "$x"]
        (settingWithin vars [5] "$x" seen₁)) := by
    rw [evaluate_eq_finish_modify rfl rfl rfl, words]
    show finish 0 (runTokens (evaluateAt 0) 0 strict 0 _ (settingWithin .empty [] "" [])) = _
    rw [runTokens_cons, first]
  have refused : (settingWorld.evaluate 0 "$x $y $x" true).2 =
      .failed ⟨.unknownToken, "$y", 1⟩ := by
    rw [run, runTokens_cons, unknown]
    rfl
  have through : (settingWorld.evaluate 0 "$x $y $x" false).2 = .ok := by
    rw [run, runTokens_cons, second]
    dsimp only
    rw [runTokens_cons, third]
    rfl
  refine ⟨refused, through, ?_⟩
  rcases evaluate_modes settingWorld 0 "$x $y $x" with
    same | ⟨before, token, name, rest, w₁, c₁, parting, unnamed, -⟩
  · rw [same, through] at refused
    cases refused
  · exact ⟨before, token, name, rest, w₁, c₁, parting, unnamed (World.indexed_new _)⟩

end ReversePolish
