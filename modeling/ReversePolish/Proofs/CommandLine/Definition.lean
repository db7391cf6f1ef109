import ReversePolish.Proofs.CommandLine.Sources
import ReversePolish.Proofs.Evaluation.Construction

/-!
Reading definitions back.

The name of a definition may have blanks inside, while a reference to a variable is one word. So a
variable whose name has no blanks is read back by its name behind the sigil
(`Unaided.evaluate_reference`). A name with a blank is cut there: the first word then refers to
another variable or is the sigil alone (`Token.tokenize_cut_reference`), and is not known unless
this other variable is set as well.
-/

namespace ReversePolish.CommandLine

/-! ## Definitions -/

theorem ne_empty_of_parseDefinition {text name : String} {v : Value}
    (accepted : parseDefinition text = .ok (name, v)) : name ≠ "" := by
  unfold parseDefinition at accepted
  dsimp only at accepted
  split at accepted
  · cases accepted
  · split at accepted
    · cases accepted
    · rename_i named
      split at accepted
      · simp only [Except.ok.injEq, Prod.mk.injEq] at accepted
        rw [← accepted.1]
        exact named
      · cases accepted

theorem exists_accepted {defines : List String}
    (each : ∀ text ∈ defines, ∃ entry, parseDefinition text = .ok entry) :
    ∃ defined, Accepted defines defined := by
  induction defines with
  | nil => exact ⟨[], .nil⟩
  | cons text rest ih =>
      rcases each text List.mem_cons_self with ⟨entry, here⟩
      rcases ih fun other member => each other (List.mem_cons_of_mem text member) with
        ⟨defined, accepted⟩
      exact ⟨entry :: defined, .cons here accepted⟩

theorem Accepted.exists_text {defines : List String} {defined : List (String × Value)}
    (accepted : Accepted defines defined) {entry : String × Value} (member : entry ∈ defined) :
    ∃ text ∈ defines, parseDefinition text = .ok entry := by
  induction accepted with
  | nil => cases member
  | cons here _ ih =>
      rcases List.mem_cons.mp member with rfl | later
      · exact ⟨_, List.mem_cons_self, here⟩
      · rcases ih later with ⟨text, there, parsed⟩
        exact ⟨text, List.mem_cons_of_mem _ there, parsed⟩

/-- A definition counts if none of the same name follows. -/
theorem get?_defined {after : List String} {earlier later : List (String × Value)}
    {name : String} {v : Value} (accepted : Accepted after later)
    (last : ∀ text ∈ after, ∀ u, parseDefinition text ≠ .ok (name, u)) (t : Variables) :
    (t.setAll (earlier ++ (name, v) :: later)).get? name = some v := by
  have none : (Variables.empty.setAll later).get? name = none := by
    refine Option.eq_none_iff_forall_ne_some.mpr fun u found => ?_
    rcases accepted.exists_text (Variables.mem_of_get?_setAll found) with ⟨text, member, parsed⟩
    exact last text member u parsed
  rw [Variables.get?_setAll, ← List.singleton_append, Variables.get?_setAll_append,
    Variables.get?_setAll_append, none, Variables.get?_setAll_singleton, if_pos rfl]
  rfl

/-- The context of a session that is built without tracing. -/
structure Untraced (s : Session) (d : Context) : Prop where
  world : s.world = ⟨[d], none, []⟩
  unwatched : d.hook = none
  isOpen : d.closed = false
  idle : d.busy = false
  builtins : d.OnlyBuiltins
  unlisted : ∀ name, d.operators.lookup? (Token.reference name) = none

theorem exists_untraced {env : Environment} {c : Config} (untraced : c.trace = false)
    {fromJson defined : List (String × Value)} (json : jsonVariables env c = .ok fromJson)
    {defines : List String} (accepted : Accepted defines defined) :
    ∃ s d, newSession env c defines = .ok s ∧ Untraced s d ∧
      d.vars = ((c.seed .empty).setAll fromJson).setAll defined := by
  simp only [newSession, startingVariables, json, accepted.definedVariables_eq, untraced,
    Bool.false_eq_true, if_false]
  refine ⟨_, _, rfl, ⟨rfl, rfl, rfl, rfl, ?_, ?_⟩, rfl⟩
  · intro op member
    rcases Context.mem_startingOperators member with ⟨-, b, -, same⟩
    exact ⟨b, same⟩
  · dsimp only [Context.new]
    exact Context.lookup?_reference rfl

namespace Untraced

variable {s : Session} {d : Context} (session : Untraced s d) (stack : List Value)
include session

theorem context?_eq : s.context? = some d := by
  simp only [Session.context?, session.world]
  rfl

theorem unaided :
    Unaided (s.world.put Session.home { d with stack := stack }) Session.home
      { d with stack := stack } := by
  rw [session.world]
  exact ⟨rfl, session.unwatched, rfl, session.builtins⟩

end Untraced

/-- A definition whose name has no blanks can be read back: in the session that was built with it, a
strict evaluation of its name behind the sigil succeeds and pushes the value, on every stack and
with no other effect. -/
theorem evaluate_definition {env : Environment} {c : Config} (untraced : c.trace = false)
    {fromJson : List (String × Value)} (json : jsonVariables env c = .ok fromJson)
    {before after : List String} {text name : String} {v : Value}
    (accepted : parseDefinition text = .ok (name, v))
    (others : ∀ other ∈ before ++ after, ∃ entry, parseDefinition other = .ok entry)
    (last : ∀ other ∈ after, ∀ u, parseDefinition other ≠ .ok (name, u))
    (solid : Text.BlankFree name) :
    ∃ s d, newSession env c (before ++ text :: after) = .ok s ∧ s.context? = some d ∧
      ∀ stack : List Value,
        let w := s.world.put Session.home { d with stack := stack }
        w.evaluate Session.home ("$" ++ name) true =
          (w.put Session.home { d with
            stack := v :: stack, status := .ok, halted := false, lastToken := "$" ++ name },
            .ok) := by
  rcases exists_accepted fun other member => others other (List.mem_append_left after member) with
    ⟨earlier, first⟩
  rcases exists_accepted fun other member => others other (List.mem_append_right before member) with
    ⟨later, second⟩
  have all : Accepted (before ++ text :: after) (earlier ++ (name, v) :: later) :=
    List.rel_append first (.cons accepted second)
  rcases exists_untraced untraced json all with ⟨s, d, opened, session, vars⟩
  have word : Text.IsWord name := ⟨ne_empty_of_parseDefinition accepted, solid⟩
  have set : d.vars.get? name = some v := by
    rw [vars]
    exact get?_defined second last _
  refine ⟨s, d, opened, session.context?_eq, fun stack => ?_⟩
  exact (session.unaided stack).evaluate_reference session.isOpen session.idle word
    (session.unlisted name) set true

/-- The blanks around a name and its sigil are not part of it, and an earlier definition of the name
does not count. -/
theorem evaluate_definition_rate :
    let env : Environment :=
      { input := "", terminal := false, colours := false, home := none, read := fun _ => .ok "" }
    ∃ s d, newSession env {} ["rate=1", " $rate = 2.5", "other=3"] = .ok s ∧ s.context? = some d ∧
      ∀ stack : List Value,
        let w := s.world.put Session.home { d with stack := stack }
        w.evaluate Session.home "$rate" true =
          (w.put Session.home { d with
            stack := .ofRatio false 5 2 :: stack, status := .ok, halted := false,
            lastToken := "$rate" }, .ok) := by
  intro env
  have first : parseDefinition "rate=1" = .ok ("rate", 1) := by decide +kernel
  have second : parseDefinition " $rate = 2.5" = .ok ("rate", .ofRatio false 5 2) := by
    decide +kernel
  have third : parseDefinition "other=3" = .ok ("other", 3) := by decide +kernel
  have untraced : ({} : Config).trace = false := rfl
  have json : jsonVariables env {} = .ok [] := rfl
  have others : ∀ other ∈ ["rate=1"] ++ ["other=3"],
      ∃ entry, parseDefinition other = .ok entry := by
    simp [first, third]
  have last : ∀ other ∈ ["other=3"], ∀ u, parseDefinition other ≠ .ok ("rate", u) := by
    simp [third]
  have word : Text.IsWord "rate" := by decide +kernel
  exact evaluate_definition untraced json second others last word.blankFree

/-- A name with a blank cannot be read back where no other variable is set: the first word of the
reference is not known. -/
theorem evaluate_cut_definition (env : Environment) {text name : String} {v : Value}
    (accepted : parseDefinition text = .ok (name, v)) (cut : ¬Text.BlankFree name) :
    ∃ s d, newSession env {} [text] = .ok s ∧ s.context? = some d ∧ d.vars.get? name = some v ∧
      ∀ stack : List Value,
        let w := s.world.put Session.home { d with stack := stack }
        let first := "$" ++ Token.firstPart name
        w.evaluate Session.home ("$" ++ name) true =
          (w.put Session.home { d with
            stack := stack, status := .unknownToken, halted := false, lastToken := first },
            .failed ⟨.unknownToken, first, 0⟩) := by
  have all : Accepted [text] [(name, v)] := .cons accepted .nil
  have untraced : ({} : Config).trace = false := rfl
  have json : jsonVariables env {} = .ok [] := rfl
  rcases exists_untraced untraced json all with ⟨s, d, opened, session, vars⟩
  rcases Token.tokenize_cut_reference cut with ⟨other, rest, tokens⟩
  have get? (name' : String) : d.vars.get? name' = if name = name' then some v else none := by
    rw [vars]
    exact Variables.get?_setAll_singleton name name' v
  have unset : d.vars.get? (Token.firstPart name) = none := by
    rw [get?, if_neg (Ne.symm other)]
  refine ⟨s, d, opened, session.context?_eq, ?_, fun stack => ?_⟩
  · rw [get?, if_pos rfl]
  · exact (session.unaided stack).evaluate_unset session.isOpen session.idle tokens
      (session.unlisted _) unset

/-- A definition may have a name of two words. -/
theorem evaluate_definition_two_words :
    let env : Environment :=
      { input := "", terminal := false, colours := false, home := none, read := fun _ => .ok "" }
    parseDefinition "a b=1" = .ok ("a b", 1) ∧
      ∃ s d, newSession env {} ["a b=1"] = .ok s ∧ s.context? = some d ∧
        d.vars.get? "a b" = some 1 ∧
        ∀ stack : List Value,
          ((s.world.put Session.home { d with stack := stack }).evaluate Session.home "$a b"
            true).2 = .failed ⟨.unknownToken, "$a", 0⟩ := by
  intro env
  have accepted : parseDefinition "a b=1" = .ok ("a b", 1) := by decide +kernel
  have cut : ¬Text.BlankFree "a b" := fun free => absurd (free ' ' (by decide)) (by decide)
  have first : "$" ++ Token.firstPart "a b" = "$a" := by decide +kernel
  rcases evaluate_cut_definition env accepted cut with ⟨s, d, opened, here, set, evaluated⟩
  rw [first] at evaluated
  exact ⟨accepted, s, d, opened, here, set, fun stack => congrArg Prod.snd (evaluated stack)⟩

end ReversePolish.CommandLine
