import Mathlib.Data.List.Induction
import ReversePolish.CommandLine.Options

/-!
Options are read as they were written.

There are several ways of writing an option. Its value may stand behind its letter or be the next
argument, and switches may be gathered in front of it, behind one dash. A `Group` is what stands
behind a dash, with the argument that follows it if there is one, and groups one after the other are
everything that can be written. What is read of a group is what was written, whatever follows
(`readOccurrences_group`), because a value ends its group: a value that looks like an option, or
like the end of the options, is never looked at as one.
-/

namespace ReversePolish.CommandLine

/-! ## Writing -/

/-- How an option is written behind a dash: a switch as its letter, a setting as its letter with the
value in the next argument, or with a value that is not empty right behind it. -/
inductive Spelling where
  | switch (s : Switch)
  | separate (s : Setting) (value : String)
  | attached (s : Setting) (value : String) (nonempty : value ≠ "")

namespace Spelling

/-- The option that is meant. -/
def occurrence : Spelling → Occurrence
  | .switch s => .switch s
  | .separate s value | .attached s value _ => .setting s value

/-- What stands behind the dash. -/
def letters : Spelling → List Char
  | .switch s => [s.letter]
  | .separate s _ => [s.letter]
  | .attached s value _ => s.letter :: value.toList

/-- The argument that follows, if there is one. -/
def following : Spelling → List String
  | .separate _ value => [value]
  | .switch _ | .attached .. => []

end Spelling

/-- Options behind one dash: switches, and one more option. -/
structure Group where
  before : List Switch
  last : Spelling

namespace Group

/-- The options that are meant, in their order. -/
def occurrences (g : Group) : List Occurrence :=
  g.before.map .switch ++ [g.last.occurrence]

/-- The arguments in which they are written. -/
def arguments (g : Group) : List String :=
  String.ofList ('-' :: (g.before.map Switch.letter ++ g.last.letters)) :: g.last.following

end Group

/-! ## Reading -/

theorem optionOf?_switch (s : Switch) : optionOf? s.letter = some (.inl s) := by
  cases s <;> rfl

theorem optionOf?_setting (s : Setting) : optionOf? s.letter = some (.inr s) := by
  cases s <;> rfl

theorem readCluster_switches (before : List Switch) (rest : List Char) :
    readCluster (before.map Switch.letter ++ rest) =
      (readCluster rest).map (fun read => (before.map .switch ++ read.1, read.2)) := by
  induction before with
  | nil =>
      show _ = (readCluster rest).map id
      rw [Except.map_id]
      rfl
  | cons s before ih =>
      rw [List.map_cons, List.cons_append, readCluster, optionOf?_switch]
      dsimp only
      rw [ih]
      cases readCluster rest <;> rfl

/-- A setting whose value is the next argument. -/
def Spelling.waiting : Spelling → Option Setting
  | .separate s _ => some s
  | .switch _ | .attached .. => none

theorem readCluster_letters (form : Spelling) :
    readCluster form.letters =
      .ok (if form.waiting.isSome then [] else [form.occurrence], form.waiting) := by
  cases form with
  | switch s =>
      rw [Spelling.letters, readCluster, optionOf?_switch]
      rfl
  | separate s value =>
      rw [Spelling.letters, readCluster, optionOf?_setting]
      rfl
  | attached s value nonempty =>
      have some : value.toList.isEmpty = false :=
        List.isEmpty_eq_false_iff.mpr (fun none => nonempty (String.toList_eq_nil_iff.mp none))
      rw [Spelling.letters, readCluster, optionOf?_setting]
      dsimp only
      rw [some, String.ofList_toList]
      rfl

/-- Behind a dash, letters are a group of options. -/
theorem readOccurrences_dash {letter : Char} (other : letter ≠ '-') (letters : List Char)
    (rest : List String) :
    readOccurrences none (String.ofList ('-' :: letter :: letters) :: rest) =
      match readCluster (letter :: letters) with
      | .error e => .error e
      | .ok (found, waiting) =>
        (readOccurrences waiting rest).map (fun read => (found ++ read.1, read.2)) := by
  have option : String.ofList ('-' :: letter :: letters) ≠ "--" := by
    intro same
    have chars := congrArg String.toList same
    rw [String.toList_ofList] at chars
    exact other (List.cons.inj (List.cons.inj chars).2).1
  simp only [readOccurrences, if_neg option, String.toList_ofList]
  cases readCluster (letter :: letters) with
  | error e => rfl
  | ok read =>
      dsimp only
      cases readOccurrences read.2 rest <;> rfl

theorem Group.exists_letter (g : Group) :
    ∃ letter letters, g.before.map Switch.letter ++ g.last.letters = letter :: letters ∧
      letter ≠ '-' := by
  have switched (s : Switch) : s.letter ≠ '-' := by
    cases s <;> decide
  have set (s : Setting) : s.letter ≠ '-' := by
    cases s <;> decide
  rcases g with ⟨_ | ⟨s, before⟩, last⟩
  · cases last with
    | switch s => exact ⟨_, _, rfl, switched s⟩
    | separate s value => exact ⟨_, _, rfl, set s⟩
    | attached s value nonempty => exact ⟨_, _, rfl, set s⟩
  · exact ⟨_, _, rfl, switched s⟩

/-- A group is read as what was written, in front of whatever follows it. -/
theorem readOccurrences_group (g : Group) (rest : List String) :
    readOccurrences none (g.arguments ++ rest) =
      (readOccurrences none rest).map (fun read => (g.occurrences ++ read.1, read.2)) := by
  rcases g.exists_letter with ⟨letter, letters, cluster, other⟩
  have read := readCluster_switches g.before g.last.letters
  rw [readCluster_letters, cluster] at read
  rw [Group.arguments, Group.occurrences, List.cons_append, cluster,
    readOccurrences_dash other, read]
  cases g.last with
  | switch s => rfl
  | attached s value nonempty => rfl
  | separate s value =>
      -- The value is taken as it is, before the next argument is looked at.
      simp only [Except.map, Spelling.waiting, Spelling.following, Spelling.occurrence,
        List.singleton_append, readOccurrences, Option.isSome_some, if_true]
      cases readOccurrences none rest with
      | error e => rfl
      | ok read => simp

theorem readOccurrences_groups (groups : List Group) (rest : List String) :
    readOccurrences none (groups.flatMap Group.arguments ++ rest) =
      (readOccurrences none rest).map
        (fun read => (groups.flatMap Group.occurrences ++ read.1, read.2)) := by
  induction groups with
  | nil =>
      show _ = (readOccurrences none rest).map id
      rw [Except.map_id]
      rfl
  | cons g groups ih =>
      rw [List.flatMap_cons, List.append_assoc, readOccurrences_group, ih, List.flatMap_cons]
      cases readOccurrences none rest with
      | error e => rfl
      | ok read => simp [Except.map]

/-! ## What is asked for -/

/-- The values of a setting, in their order. -/
def valuesOf (s : Setting) (found : List Occurrence) : List String :=
  found.filterMap fun
    | .switch _ => none
    | .setting t value => if t = s then some value else none

/-- The value of a setting that was given last; empty if there is none. -/
def lastValue (s : Setting) (found : List Occurrence) : String :=
  (valuesOf s found).getLastD ""

/-- Options say what was written: expressions and definitions are all there in their order, the
other settings have the values that were given last, and the switches are on that occur. -/
structure Options.Say (o : Options) (found : List Occurrence) : Prop where
  expressions : o.expressions = valuesOf .expression found
  defines : o.defines = valuesOf .define found
  config : o.config = lastValue .config found
  file : o.file = lastValue .file found
  jsonFile : o.jsonFile = lastValue .jsonFile found
  jsonQuery : o.jsonQuery = lastValue .jsonQuery found
  logLevel : o.logLevel = lastValue .logLevel found
  strict : o.strict = true ↔ .switch .strict ∈ found
  trace : o.trace = true ↔ .switch .trace ∈ found
  help : o.help = true ↔ .switch .help ∈ found

section Last

variable (s t : Setting) (found : List Occurrence) (x : Switch) (value : String)

@[simp] theorem valuesOf_concat_switch :
    valuesOf s (found ++ [.switch x]) = valuesOf s found := by
  simp [valuesOf]

@[simp] theorem valuesOf_concat_setting :
    valuesOf s (found ++ [.setting t value]) =
      if t = s then valuesOf s found ++ [value] else valuesOf s found := by
  unfold valuesOf
  split <;> simp_all

@[simp] theorem lastValue_concat_switch :
    lastValue s (found ++ [.switch x]) = lastValue s found := by
  rw [lastValue, valuesOf_concat_switch, lastValue]

@[simp] theorem lastValue_concat_setting :
    lastValue s (found ++ [.setting t value]) = if t = s then value else lastValue s found := by
  unfold lastValue
  rw [valuesOf_concat_setting]
  split <;> simp

end Last

/-- One more option is taken into account. -/
theorem Options.Say.add {o : Options} {found : List Occurrence} (said : o.Say found)
    (x : Occurrence) : (o.add x).Say (found ++ [x]) := by
  rcases said with ⟨expressions, defines, config, file, jsonFile, jsonQuery, logLevel, strict,
    trace, help⟩
  rcases x with s | ⟨s, value⟩ <;> cases s <;> constructor <;> simp_all [Options.add]

theorem Options.say_foldl_add (found : List Occurrence) :
    (found.foldl Options.add {}).Say found := by
  induction found using List.reverseRecOn with
  | nil => constructor <;> simp [valuesOf, lastValue]
  | append_singleton found x ih =>
      rw [List.foldl_append, List.foldl_cons, List.foldl_nil]
      exact ih.add x

/-- An argument that does not begin with a dash ends the options. -/
theorem readOccurrences_plain {argument : String} (plain : argument.toList.head? ≠ some '-')
    (rest : List String) :
    readOccurrences none (argument :: rest) = .ok ([], argument :: rest) := by
  have option : argument ≠ "--" := by
    rintro rfl
    exact plain rfl
  simp only [readOccurrences, if_neg option]
  split
  · rename_i letter letters chars
    rw [chars] at plain
    exact absurd rfl plain
  · rfl

/-- Whichever options are written, and in whichever of the ways, they are read as written, unless
they name a file and give expressions as well; then they are refused. Behind them no argument is
accepted that does not begin with a dash. -/
theorem Options.parse_written (groups : List Group) :
    let found := groups.flatMap Group.occurrences
    let arguments := groups.flatMap Group.arguments
    (if lastValue .file found ≠ "" ∧ valuesOf .expression found ≠ [] then
      parse arguments = .error .expressionAndFile
    else ∃ o, parse arguments = .ok o ∧ o.Say found) ∧
    ∀ argument : String, argument.toList.head? ≠ some '-' →
      parse (arguments ++ [argument]) = .error (.unexpected argument) := by
  intro found arguments
  have said := say_foldl_add found
  constructor
  · have read : readOccurrences none arguments = .ok (found, []) := by
      have all := readOccurrences_groups groups []
      rw [List.append_nil] at all
      rw [all]
      exact congrArg (fun found => Except.ok (found, [])) (List.append_nil found)
    have parsed : parse arguments =
        if lastValue .file found ≠ "" ∧ valuesOf .expression found ≠ [] then
          .error .expressionAndFile
        else .ok (found.foldl add {}) := by
      rw [parse, read, ← said.file, ← said.expressions]
    rw [parsed]
    split
    · rfl
    · exact ⟨_, rfl, said⟩
  · intro argument plain
    rw [parse, readOccurrences_groups, readOccurrences_plain plain]
    rfl

/-- Values that look like options or are empty, in groups with switches. -/
theorem Options.parse_written_disguised :
    let groups : List Group :=
      [⟨[.strict], .separate .expression "--"⟩, ⟨[.trace], .attached .define "-x=1" (by decide)⟩,
        ⟨[], .separate .file "-"⟩, ⟨[], .separate .file ""⟩]
    groups.flatMap Group.arguments = ["-se", "--", "-tD-x=1", "-f", "-", "-f", ""] ∧
      (∃ o, parse ["-se", "--", "-tD-x=1", "-f", "-", "-f", ""] = .ok o ∧
        o.Say (groups.flatMap Group.occurrences)) ∧
      parse ["-se", "--", "-tD-x=1", "-f", "-", "-f", "", "x"] = .error (.unexpected "x") := by
  intro groups
  have written := Options.parse_written groups
  exact ⟨by decide, written.1, written.2 "x" (by decide)⟩

end ReversePolish.CommandLine
