import ReversePolish.Proofs.Literal
import ReversePolish.Proofs.Session.Command

/-!
Variables that are set by a command and variables that are defined by an argument.

The two are read apart: a command has its words, a definition is cut at an equals sign. For a name
and a value that are words they come to the same variable with the same value, or both are refused
(`Session.command_set_as_defined`). There is one exception: the sigil alone is no name for a
definition, and a command takes it for the variable without a name.
-/

namespace ReversePolish

namespace Text

theorem trim_of_isWord {s : String} (word : IsWord s) : trim s = s :=
  trim_of_ends (fun c head => word.blankFree c (List.mem_of_head? head))
    (fun c last => word.blankFree c (List.mem_of_getLast? last))

theorem dropLeading_ne_empty {c : Char} {s : String} (nonempty : s ≠ "")
    (other : s ≠ String.singleton c) : dropLeading c s ≠ "" := by
  unfold dropLeading
  split
  · rename_i d rest chars
    split
    · rename_i same
      rw [ne_eq, String.ofList_eq_empty_iff]
      rintro rfl
      refine other ?_
      rw [← String.toList_inj, chars, same, String.toList_singleton]
    · exact nonempty
  · exact nonempty

end Text

/-- The words of a command line that sets a variable. -/
theorem Command.fields_set {name written : String} (named : Text.IsWord name)
    (valued : Text.IsWord written) :
    fields (":set " ++ name ++ " " ++ written) = ["set", name, written] := by
  have each : ∀ s ∈ ["set", name, written], Text.IsWord s := by
    have set : Text.IsWord "set" := by decide
    simp [set, named, valued]
  have chars : (":set " ++ name ++ " " ++ written).toList =
      ':' :: (" ".intercalate ["set", name, written]).toList := by
    simp
  rw [fields_eq, chars]
  exact Text.words_intercalate each

/-- The sigil alone is no name for a definition. -/
theorem CommandLine.parseDefinition_of_sigil (written : String) :
    parseDefinition ("$" ++ "=" ++ written) = .error (.malformed ("$" ++ "=" ++ written)) := by
  have chars : ("$" ++ "=" ++ written).toList = '$' :: '=' :: written.toList := by
    simp
  have apart : ('$' :: '=' :: written.toList).span (· != '=') = (['$'], '=' :: written.toList) := by
    rw [List.span_eq_takeWhile_dropWhile]
    rfl
  unfold parseDefinition
  rw [chars, apart]
  exact if_pos rfl

namespace Session

open CommandLine

/-- What a command line that sets a variable does, by what its last word is read as. -/
theorem command_set_alters {s : Session} {c : Context} (present : s.context? = some c)
    {name written : String} (named : Text.IsWord name) (valued : Text.IsWord written) :
    s.command (":set " ++ name ++ " " ++ written) =
      match Value.read? written with
      | some v =>
        (s.alter c c.stack (c.vars.set (Text.dropLeading Token.sigil name) v) s.strict, ⟨"", ""⟩,
          false)
      | none => (s, ⟨"", s.palette.failure (CommandError.badValue written).message⟩, false) := by
  rw [command_set present (Command.fields_set named valued)]
  cases Value.read? written with
  | none => rfl
  | some v =>
      dsimp only
      rw [update_eq present]
      rfl

/-- A command that sets a variable and a definition of that variable agree, if both are given the
same two words: they come to one variable and one value, or both are refused and nothing changes.
This is so unless the name is the sigil alone, which the definition refuses while the command sets
the variable without a name. -/
theorem command_set_as_defined {s : Session} {c : Context} (present : s.context? = some c)
    {name written : String} (named : Text.IsWord name) (divided : '=' ∉ name.toList)
    (valued : Text.IsWord written) :
    let line := ":set " ++ name ++ " " ++ written
    let definition := name ++ "=" ++ written
    let refused : Session × Output × Bool :=
      (s, ⟨"", s.palette.failure (CommandError.badValue written).message⟩, false)
    (name ≠ "$" →
      (∀ n v, Command.parse line = .ok (.set n v) ↔ parseDefinition definition = .ok (n, v)) ∧
      (∀ n v, parseDefinition definition = .ok (n, v) →
        s.command line = (s.alter c c.stack (c.vars.set n v) s.strict, ⟨"", ""⟩, false)) ∧
      ∀ e, parseDefinition definition = .error e → s.command line = refused) ∧
    (name = "$" →
      parseDefinition definition = .error (.malformed definition) ∧
      s.command line =
        match Value.read? written with
        | some v => (s.alter c c.stack (c.vars.set "" v) s.strict, ⟨"", ""⟩, false)
        | none => refused) := by
  intro line definition refused
  have parsed : Command.parse line = Command.setting [name, written] := by
    rw [Command.parse, Command.fields_set named valued]
    rfl
  have carried := command_set_alters present named valued
  refine ⟨fun other => ?_, ?_⟩
  · have nonempty : Text.dropLeading Token.sigil (Text.trim name) ≠ "" := by
      rw [Text.trim_of_isWord named]
      exact Text.dropLeading_ne_empty named.ne_empty other
    rw [parsed, carried, Command.setting, parseDefinition_eq divided nonempty,
      Text.trim_of_isWord named, Text.trim_of_isWord valued]
    cases Value.read? written with
    | none =>
        refine ⟨fun n v => by simp, fun n v accepted => ?_, fun e _ => rfl⟩
        cases accepted
    | some v =>
        refine ⟨fun n w => by simp, fun n w accepted => ?_, fun e rejected => ?_⟩
        · cases accepted
          rfl
        · cases rejected
  · rintro rfl
    exact ⟨parseDefinition_of_sigil written, carried⟩

/-- The value is written in another base for one variable and is out of range for another. -/
theorem command_set_as_defined_rate :
    let c : Context := { Context.new {} with stack := [1], vars := ⟨[("rate", 2), ("a", 3)]⟩ }
    let s : Session := ⟨⟨[c], none, []⟩, false, ⟨false⟩, false⟩
    let vars : Variables := ⟨[("rate", 4), ("a", 3)]⟩
    parseDefinition "$rate=0x1p2" = .ok ("rate", 4) ∧
      s.command ":set $rate 0x1p2" = (s.alter c [1] vars false, ⟨"", ""⟩, false) ∧
      s.command ":set a 1e39" = (s, ⟨"", "error: bad value \"1e39\"\n"⟩, false) := by
  intro c s vars
  have present : s.context? = some c := rfl
  have rate : Text.IsWord "$rate" := by decide
  have four : Text.IsWord "0x1p2" := by decide
  have a : Text.IsWord "a" := by decide
  have large : Text.IsWord "1e39" := by decide
  have set := command_set_as_defined present rate (by decide) four
  have refused := command_set_as_defined present a (by decide) large
  have accepted : parseDefinition "$rate=0x1p2" = .ok ("rate", 4) := by decide +kernel
  have bad : parseDefinition "a=1e39" = .error (.badValue "a=1e39") := by decide +kernel
  refine ⟨accepted, ?_, ?_⟩
  · exact (set.1 (by decide)).2.1 "rate" 4 accepted
  · exact (refused.1 (by decide)).2.2 _ bad

/-- The sigil alone is refused as the name of a definition, and a command sets the variable that has
no name. -/
theorem command_sets_nameless :
    let c : Context := Context.new {}
    let s : Session := ⟨⟨[c], none, []⟩, false, ⟨false⟩, false⟩
    c.vars.names = [] ∧ parseDefinition "$=1" = .error (.malformed "$=1") ∧
      s.command ":set $ 1" = (s.alter c [] ⟨[("", 1)]⟩ false, ⟨"", ""⟩, false) := by
  intro c s
  have one : Value.read? "1" = some 1 := by decide +kernel
  have sigil : Text.IsWord "$" := by decide
  have digit : Text.IsWord "1" := by decide
  have present : s.context? = some c := rfl
  have carried := command_set_alters present sigil digit
  rw [one] at carried
  exact ⟨rfl, parseDefinition_of_sigil "1", carried⟩

end Session

end ReversePolish
