import ReversePolish.Proofs.Evaluation.World
import ReversePolish.Proofs.Text.Fragment
import ReversePolish.Proofs.Variables
import ReversePolish.Session.Fragment

/-!
What command lines do to a session.

A command line is read into what its words ask for (`Command.Asks`), and each command changes at
most one of three things: the stack, the variables or the strictness (`Session.Effect`). A line that
is answered with a failure changes nothing, and whether a line asks to leave is told by its first
word alone. All of this holds of lines that were cut inside a character as well: the word that was
cut is the last one, so it is the first one only if there is no other
(`Command.head?_fields_shown`).
-/

namespace ReversePolish

/-! ## One variable -/

namespace Variables

/-- A table in which one name was given a value. A known name keeps its place, and every other entry
stays as it is and where it is. -/
structure SetsOnly (t : Variables) (name : String) (v : Value) (t' : Variables) : Prop where
  get? : t'.get? name = some v
  names : t'.names = if name ∈ t.names then t.names else t.names ++ [name]
  others : t'.entries.filter (·.1 ≠ name) = t.entries.filter (·.1 ≠ name)

/-- A table out of which one name was taken. Every other entry stays, in its order. -/
structure ErasesOnly (t : Variables) (name : String) (t' : Variables) : Prop where
  known : name ∈ t.names
  names : t'.names = t.names.erase name
  gone : t.names.Nodup → t'.get? name = none
  others : t'.entries.filter (·.1 ≠ name) = t.entries.filter (·.1 ≠ name)

theorem setsOnly_set (t : Variables) (name : String) (v : Value) :
    t.SetsOnly name v (t.set name v) where
  get? := by rw [get?_set, if_pos rfl]
  names := names_setEntry name v t.entries
  others := by
    obtain ⟨entries⟩ := t
    show (setEntry name v entries).filter _ = entries.filter _
    induction entries with
    | nil => simp [setEntry]
    | cons entry rest ih =>
        by_cases here : entry.1 = name
        · simp [setEntry, here]
        · rw [setEntry, if_neg here, List.filter_cons_of_pos (by simp [here]),
            List.filter_cons_of_pos (by simp [here]), ih]

theorem erasesOnly_erase {t : Variables} {name : String} (known : name ∈ t.names) :
    t.ErasesOnly name (t.erase name) where
  known := known
  names := by
    obtain ⟨entries⟩ := t
    show (entries.eraseP (·.1 = name)).map (·.1) = (entries.map (·.1)).erase name
    rw [List.erase_eq_eraseP, List.eraseP_map]
    congr 2
    funext entry
    simp [Bool.beq_eq_decide_eq, eq_comm]
  gone apart := by rw [get?_erase apart, if_pos rfl]
  others := by
    obtain ⟨entries⟩ := t
    show (entries.eraseP (·.1 = name)).filter _ = entries.filter _
    clear known
    induction entries with
    | nil => rfl
    | cons entry rest ih =>
        by_cases here : entry.1 = name
        · simp [here]
        · rw [List.eraseP_cons_of_neg (by simp [here]), List.filter_cons_of_pos (by simp [here]),
            List.filter_cons_of_pos (by simp [here]), ih]

end Variables

/-! ## Words of a command line -/

namespace Command

open Text

/-- The words of a command line follow its colon, and the blanks in front of that and at the end of
the line do not matter. -/
theorem fields_eq (line : String) :
    fields line =
      match line.toList.dropWhile isBlank with
      | [] => []
      | c :: rest => (runs (if c = ':' then rest else c :: rest)).map String.ofList := by
  rcases exists_blanks_of_dropWhile_reverse (line.toList.dropWhile isBlank) with
    ⟨gap, blank, parts⟩
  have trimmed : (trim line).toList =
      ((line.toList.dropWhile isBlank).reverse.dropWhile isBlank).reverse := by
    rw [trim, String.toList_ofList, trimBlanks]
  rw [← trimmed] at parts
  unfold fields words dropLeading
  cases front : line.toList.dropWhile isBlank with
  | nil =>
      have none : (trim line).toList = [] := by
        rw [trimmed, front]
        rfl
      rw [none]
      dsimp only
      rw [none]
      rfl
  | cons c rest =>
      have solid : isBlank c = false := by
        have head := List.head?_dropWhile_not isBlank line.toList
        rw [front] at head
        simpa using head
      rw [front] at parts
      cases kept : (trim line).toList with
      | nil =>
          rw [kept, List.nil_append] at parts
          have blank := blank c (parts ▸ List.mem_cons_self)
          rw [solid] at blank
          cases blank
      | cons d more =>
          rw [kept, List.cons_append, List.cons.injEq] at parts
          obtain ⟨rfl, rfl⟩ := parts
          dsimp only
          split
          · rw [String.toList_ofList, runs_append_blanks blank]
          · rw [kept, ← List.cons_append, runs_append_blanks blank]

/-- A blank behind a visible character separates the words of a command line. -/
theorem fields_append {start : List Char} {b : Char} (blank : isBlank b = true)
    (visible : start.dropWhile isBlank ≠ []) (rest : List Char) :
    fields (String.ofList (start ++ b :: rest)) =
      fields (String.ofList start) ++ (runs rest).map String.ofList := by
  rw [fields_eq, fields_eq, String.toList_ofList, String.toList_ofList, List.dropWhile_append]
  cases front : start.dropWhile isBlank with
  | nil => exact absurd front visible
  | cons c more =>
      rw [List.isEmpty_cons, if_neg Bool.false_ne_true, List.cons_append]
      dsimp only
      split
      · rw [runs_append_cons blank, List.map_append]
      · rw [← List.cons_append, runs_append_cons blank, List.map_append]

theorem fields_of_blank {line : String} (blank : line.toList.dropWhile isBlank = []) :
    fields line = [] := by
  rw [fields_eq, blank]

/-- The first word of a line that was cut stands before the cut if any word does. -/
theorem head?_fields_shown {line : Fragment} (nonempty : fields line.firstCut.1 ≠ []) :
    (fields line.shown).head? = (fields line.firstCut.1).head? := by
  rcases line.firstCut_cases with empty | ⟨front, b, rest, blank, start, shown⟩
  · rw [empty] at nonempty
    exact absurd (fields_of_blank rfl) nonempty
  · rw [start] at nonempty ⊢
    have visible : front.dropWhile isBlank ≠ [] := by
      intro none
      refine nonempty (fields_of_blank ?_)
      rw [String.toList_ofList, List.dropWhile_append, none]
      simp [blank]
    have words : fields (String.ofList (front ++ [b])) = fields (String.ofList front) := by
      rw [fields_append blank visible, runs_nil, List.map_nil, List.append_nil]
    rw [words] at nonempty ⊢
    rw [shown, fields_append blank visible, List.head?_append_of_ne_nil _ nonempty]

/-! ## What words ask for -/

/-- The words that ask to leave. -/
def leaveWords : List String :=
  ["q", "quit", "exit"]

/-- Whether the words of a command line ask to leave. -/
def asksToLeave (words : List String) : Bool :=
  words.head?.any leaveWords.contains

/-- The words of the commands that change something. -/
def changeWords : List String :=
  ["clear", "set", "del", "strict"]

/-- Whether the words of a command line ask for a change. -/
def asksToChange (words : List String) : Bool :=
  words.head?.any changeWords.contains

/-- What words ask for. -/
inductive Asks : List String → Command → Prop
  | nothing : Asks [] .nothing
  | quit {verb : String} (leaves : verb ∈ leaveWords) (rest : List String) :
      Asks (verb :: rest) .quit
  | help {verb : String} (helps : verb = "h" ∨ verb = "help") : Asks [verb] .help
  | explain {verb : String} (helps : verb = "h" ∨ verb = "help") (name : String)
      (rest : List String) : Asks (verb :: name :: rest) (.explain name)
  | stack (rest : List String) : Asks ("stack" :: rest) .stack
  | clear (rest : List String) : Asks ("clear" :: rest) .clear
  | vars (rest : List String) : Asks ("vars" :: rest) .vars
  | operators (rest : List String) : Asks ("ops" :: rest) .operators
  | set {written text : String} {v : Value} (read : Value.read? text = some v) :
      Asks ["set", written, text] (.set (dropLeading Token.sigil written) v)
  | delete (written : String) : Asks ["del", written] (.delete written)
  | strict (on : Bool) : Asks ["strict", if on then "on" else "off"] (.strict on)

theorem asks_of_ofFields {words : List String} {cmd : Command}
    (parsed : ofFields words = .ok cmd) : Asks words cmd := by
  unfold ofFields at parsed
  split at parsed
  · cases parsed
    exact .nothing
  · split at parsed
    · cases parsed
      exact .quit (by decide) _
    · cases parsed
      exact .quit (by decide) _
    · cases parsed
      exact .quit (by decide) _
    · split at parsed
      · cases parsed
        exact .help (.inl rfl)
      · cases parsed
        exact .explain (.inl rfl) _ _
    · split at parsed
      · cases parsed
        exact .help (.inr rfl)
      · cases parsed
        exact .explain (.inr rfl) _ _
    · cases parsed
      exact .stack _
    · cases parsed
      exact .clear _
    · cases parsed
      exact .vars _
    · cases parsed
      exact .operators _
    · unfold setting at parsed
      split at parsed
      · split at parsed
        · rename_i read
          cases parsed
          exact .set read
        · cases parsed
      · cases parsed
    · split at parsed
      · cases parsed
        exact .delete _
      · cases parsed
    · split at parsed
      · cases parsed
        exact .strict true
      · cases parsed
        exact .strict false
      · cases parsed
    · cases parsed

theorem ofFields_eq_quit_iff (words : List String) :
    ofFields words = .ok .quit ↔ asksToLeave words = true := by
  constructor
  · intro parsed
    cases asks_of_ofFields parsed with
    | quit leaves rest => exact List.contains_iff_mem.mpr leaves
  · intro leaves
    cases words with
    | nil => cases leaves
    | cons verb rest =>
        have member : verb ∈ leaveWords := List.contains_iff_mem.mp leaves
        simp only [leaveWords, List.mem_cons, List.not_mem_nil, or_false] at member
        rcases member with rfl | rfl | rfl <;> rfl

end Command

/-! ## What is done -/

theorem Palette.failure_ne_empty (p : Palette) (message : String) : p.failure message ≠ "" := by
  unfold failure paint
  split <;> simp

namespace Session

/-- A session with another stack, other variables and another strictness, and all else as before. -/
def alter (s : Session) (c : Context) (stack : List Value) (vars : Variables) (strict : Bool) :
    Session :=
  { s with world := s.world.put home { c with stack := stack, vars := vars }, strict := strict }

/-- What a command line leaves of the stack, the variables and the strictness of a session, by its
words. Each of the commands that change something changes one of the three. -/
inductive Effect (c : Context) (strict : Bool) (words : List String) :
    List Value → Variables → Bool → Prop
  | clear {rest : List String} (asked : words = "clear" :: rest) :
      Effect c strict words [] c.vars strict
  | set {written text : String} {v : Value} {vars : Variables}
      (asked : words = ["set", written, text]) (read : Value.read? text = some v)
      (set : c.vars.SetsOnly (Text.dropLeading Token.sigil written) v vars) :
      Effect c strict words c.stack vars strict
  | delete {written : String} {vars : Variables} (asked : words = ["del", written])
      (erased : c.vars.ErasesOnly (Text.dropLeading Token.sigil written) vars) :
      Effect c strict words c.stack vars strict
  | strict (on : Bool) (asked : words = ["strict", if on then "on" else "off"]) :
      Effect c strict words c.stack c.vars on
  | none (other : Command.asksToChange words = false) :
      Effect c strict words c.stack c.vars strict

/-- A command that fails because of a word that was cut does not ask to leave. -/
theorem asksToLeave_of_cutMessage? {cut : Text.Fragment} {words : List String} {message : String}
    (fails : cutMessage? cut words = some message) :
    words ≠ [] ∧ Command.asksToLeave words = false := by
  unfold cutMessage? at fails
  split at fails
  · exact ⟨List.cons_ne_nil _ _, rfl⟩
  · exact ⟨List.cons_ne_nil _ _, rfl⟩
  · exact ⟨List.cons_ne_nil _ _, rfl⟩
  · exact ⟨List.cons_ne_nil _ _, rfl⟩
  · cases fails

variable {s : Session} {c : Context} (present : s.context? = some c)
include present

theorem alter_self : s.alter c c.stack c.vars s.strict = s := by
  unfold alter
  rw [World.put_get? present]

theorem update_eq (f : Context → Context) :
    s.update f = { s with world := s.world.put home (f c) } := by
  rw [update, World.modify_eq_put present]

/-- A command that is carried out has the effect of its words. -/
theorem runOn_effect {words : List String} {cmd : Command} (asked : Command.Asks words cmd)
    {s' : Session} {shown : String} (ran : s.runOn c cmd = .ok (s', shown)) :
    ∃ stack vars strict, Effect c s.strict words stack vars strict ∧
      s' = s.alter c stack vars strict := by
  have same (other : Command.asksToChange words = false) (unchanged : s' = s) :
      ∃ stack vars strict, Effect c s.strict words stack vars strict ∧
        s' = s.alter c stack vars strict :=
    ⟨_, _, _, .none other, unchanged.trans (alter_self present).symm⟩
  have helps {verb : String} {rest : List String} (word : verb = "h" ∨ verb = "help") :
      Command.asksToChange (verb :: rest) = false := by
    rcases word with rfl | rfl <;> rfl
  cases asked with
  | nothing =>
      cases ran
      exact same rfl rfl
  | quit leaves rest =>
      cases ran
      refine same ?_ rfl
      simp only [Command.leaveWords, List.mem_cons, List.not_mem_nil, or_false] at leaves
      rcases leaves with rfl | rfl | rfl <;> rfl
  | help word =>
      cases ran
      exact same (helps word) rfl
  | explain word name rest =>
      unfold runOn at ran
      dsimp only at ran
      split at ran
      · cases ran
        exact same (helps word) rfl
      · cases ran
  | stack rest =>
      cases ran
      exact same rfl rfl
  | clear rest =>
      cases ran
      refine ⟨_, _, _, .clear rfl, ?_⟩
      rw [update_eq present]
      rfl
  | vars rest =>
      cases ran
      exact same rfl rfl
  | operators rest =>
      cases ran
      exact same rfl rfl
  | set read =>
      cases ran
      refine ⟨_, _, _, .set rfl read (Variables.setsOnly_set _ _ _), ?_⟩
      rw [update_eq present]
      rfl
  | delete written =>
      unfold runOn at ran
      dsimp only at ran
      split at ran
      · rename_i known
        cases ran
        have listed := Variables.isSome_get?_iff.mp known
        refine ⟨_, _, _, .delete rfl (Variables.erasesOnly_erase listed), ?_⟩
        rw [update_eq present]
        rfl
      · cases ran
  | strict on =>
      cases ran
      refine ⟨_, _, _, .strict on rfl, ?_⟩
      unfold alter
      rw [World.put_get? present]

/-- What a command line with these words comes to in a session whose context is `c`. A line that is
answered with a failure changes nothing, and any other has the effect of its words and no other. -/
structure Carried (s : Session) (c : Context) (words : List String)
    (result : Session × Output × Bool) : Prop where
  leave : result.2.2 = Command.asksToLeave words
  kept : ∃ stack vars strict, result.1 = s.alter c stack vars strict
  refused : result.2.1.err ≠ "" → result.1 = s
  done : result.2.1.err = "" → ∃ stack vars strict,
    Effect c s.strict words stack vars strict ∧ result.1 = s.alter c stack vars strict

theorem carried_of_failure {words : List String} (stays : Command.asksToLeave words = false)
    (message : String) : Carried s c words (s, ⟨"", s.palette.failure message⟩, false) where
  leave := stays.symm
  kept := ⟨_, _, _, (alter_self present).symm⟩
  refused _ := rfl
  done silent := absurd silent (Palette.failure_ne_empty _ _)

theorem command_carried (line : String) : Carried s c (Command.fields line) (s.command line) := by
  have failed (stays : Command.parse line ≠ .ok .quit) (message : String) :
      Carried s c (Command.fields line) (s, ⟨"", s.palette.failure message⟩, false) :=
    carried_of_failure present
      (Bool.eq_false_iff.mpr fun leaves => stays ((Command.ofFields_eq_quit_iff _).mpr leaves))
      message
  unfold command
  rw [present]
  cases parsed : Command.parse line with
  | error e => exact failed (by rw [parsed]; nofun) e.message
  | ok cmd =>
      dsimp only
      cases ran : s.runOn c cmd with
      | error e =>
          refine failed ?_ e.message
          rw [parsed]
          intro quit
          cases quit
          cases ran
      | ok done =>
          rcases done with ⟨s', shown⟩
          rcases runOn_effect present (Command.asks_of_ofFields parsed) ran with
            ⟨stack, vars, strict, effect, altered⟩
          refine ⟨?_, ⟨_, _, _, altered⟩, fun failed => absurd rfl failed,
            fun _ => ⟨_, _, _, effect, altered⟩⟩
          rw [Bool.eq_iff_iff, decide_eq_true_iff, ← Command.ofFields_eq_quit_iff,
            show Command.ofFields (Command.fields line) = .ok cmd from parsed, Except.ok.injEq]

theorem commandFragment_carried (line : Text.Fragment) :
    Carried s c (Command.fields line.shown) (s.commandFragment line) := by
  unfold commandFragment
  cases whole : line.whole? with
  | some text =>
      rw [Text.Fragment.shown_of_whole? whole]
      exact command_carried present text
  | none =>
      dsimp only
      cases cut : cutMessage? line.firstCut.2 (Command.fields line.firstCut.1) with
      | none => exact command_carried present line.shown
      | some message =>
          refine carried_of_failure present ?_ message
          rcases asksToLeave_of_cutMessage? cut with ⟨nonempty, stays⟩
          rwa [Command.asksToLeave, Command.head?_fields_shown nonempty]

/-- Commands are atomic and local, on every session and for every line, whether or not the line was
cut inside a character. -/
theorem command_effect :
    (∀ line : String, Carried s c (Command.fields line) (s.command line)) ∧
      ∀ line : Text.Fragment, Carried s c (Command.fields line.shown) (s.commandFragment line) :=
  ⟨command_carried present, commandFragment_carried present⟩

omit present in
/-- On a session with a value, a variable and a failure behind it, deleting another variable is
refused, and setting the variable changes that alone. -/
theorem command_effect_one_variable :
    let c : Context := { Context.new {} with stack := [1], vars := ⟨[("a", 2)]⟩ }
    let s : Session := ⟨⟨[c], none, []⟩, true, ⟨false⟩, true⟩
    s.context? = some c ∧ (s.command ":del $b").1 = s ∧
      (s.command ":quit now").2.2 = true ∧
      ∃ vars, c.vars.SetsOnly "a" 3 vars ∧
        (s.command " :set  $a 3").1 = s.alter c [1] vars true := by
  intro c s
  have present : s.context? = some c := rfl
  rcases command_effect present with ⟨whole, -⟩
  have refused : (s.command ":del $b").2.1.err ≠ "" := by decide +kernel
  have words : Command.fields " :set  $a 3" = ["set", "$a", "3"] := by decide +kernel
  have silent : (s.command " :set  $a 3").2.1.err = "" := by decide +kernel
  have value : Value.read? "3" = some 3 := by decide +kernel
  rcases (whole " :set  $a 3").done silent with ⟨stack, vars, strict, effect, altered⟩
  rw [words] at effect
  refine ⟨present, (whole ":del $b").refused refused, ?_, ?_⟩
  · rw [(whole ":quit now").leave]
    decide +kernel
  · cases effect with
    | clear asked => simp at asked
    | set asked read set =>
        cases asked
        rw [value] at read
        cases read
        exact ⟨vars, set, altered⟩
    | delete asked erased => simp at asked
    | strict on asked => simp at asked
    | none other => cases other

end Session

end ReversePolish
