import ReversePolish.Proofs.CommandLine.Status
import ReversePolish.Proofs.Config
import ReversePolish.Proofs.Json.Loading

/-!
Where the variables of a session come from: the configuration, a JSON document and definitions.

The three are set one after the other, so a name stands for what the last source that has it says,
and it stays where the first one has put it. The configuration and the document have every name once
and in ascending order, because both are sorted before they are set; the definitions may have a name
more than once. `Layered` says what the table looks like after that for every overlap of the three.
-/

namespace ReversePolish

namespace Variables

theorem get?_eq_lookup (t : Variables) (name : String) : t.get? name = t.entries.lookup name := by
  rcases t with ⟨entries⟩
  induction entries with
  | nil => rfl
  | cons entry rest ih =>
      rw [get?_cons, ih, List.lookup_cons]
      by_cases here : entry.1 = name
      · simp [here]
      · have other : (name == entry.1) = false := beq_false_of_ne (Ne.symm here)
        rw [if_neg here, other]

/-- Settings of distinct names are as good as a table of them. -/
theorem get?_setAll_eq_lookup {entries : List (String × Value)}
    (distinct : (entries.map (·.1)).Nodup) (name : String) :
    (empty.setAll entries).get? name = entries.lookup name := by
  have kept : (empty.setAll entries).entries = entries :=
    entries_setAll (fun _ _ => List.not_mem_nil) distinct
  rw [get?_eq_lookup, kept]

/-- The last value that a name is given. -/
def lastValue? (entries : List (String × Value)) (name : String) : Option Value :=
  ((entries.filter (·.1 = name)).map (·.2)).getLast?

/-- A table with the variables of three sources, of which the later ones count more. The first two
have their names once and in ascending order. -/
structure Layered (config fromJson defined : List (String × Value)) (t : Variables) : Prop where
  get? : ∀ name, t.get? name =
    (lastValue? defined name).or ((fromJson.lookup name).or (config.lookup name))
  mem_names : ∀ name, name ∈ t.names ↔
    name ∈ config.map (·.1) ∨ name ∈ fromJson.map (·.1) ∨ name ∈ defined.map (·.1)
  ascending : (config.map (·.1)).Pairwise (· < ·) ∧ (fromJson.map (·.1)).Pairwise (· < ·)
  names : t.names =
    config.map (·.1) ++ (fromJson.map (·.1)).filter (· ∉ config.map (·.1)) ++
      ((defined.map (·.1)).filter
        (fun name => name ∉ config.map (·.1) ∧ name ∉ fromJson.map (·.1))).eraseDups

theorem layered_setAll {config fromJson : List (String × Value)}
    (first : (config.map (·.1)).Pairwise (· < ·)) (second : (fromJson.map (·.1)).Pairwise (· < ·))
    (defined : List (String × Value)) :
    Layered config fromJson defined (((empty.setAll config).setAll fromJson).setAll defined) := by
  have apart : (config.map (·.1)).Nodup := first.imp String.ne_of_lt
  have apart' : (fromJson.map (·.1)).Nodup := second.imp String.ne_of_lt
  have seeded : (empty.setAll config).names = config.map (·.1) :=
    congrArg (·.map (·.1)) (entries_setAll (fun _ _ => List.not_mem_nil) apart)
  have loaded : ((empty.setAll config).setAll fromJson).names =
      config.map (·.1) ++ (fromJson.map (·.1)).filter (· ∉ config.map (·.1)) := by
    rw [names_setAll _ apart', seeded]
  have either (name : String) :
      name ∈ config.map (·.1) ++ (fromJson.map (·.1)).filter (· ∉ config.map (·.1)) ↔
        name ∈ config.map (·.1) ∨ name ∈ fromJson.map (·.1) := by
    simp only [List.mem_append, List.mem_filter, decide_eq_true_eq]
    tauto
  have names : (((empty.setAll config).setAll fromJson).setAll defined).names =
      config.map (·.1) ++ (fromJson.map (·.1)).filter (· ∉ config.map (·.1)) ++
        ((defined.map (·.1)).filter
          (fun name => name ∉ config.map (·.1) ∧ name ∉ fromJson.map (·.1))).eraseDups := by
    rw [names_setAll_eraseDups, loaded]
    simp only [either, not_or]
  refine ⟨fun name => ?_, fun name => ?_, ⟨first, second⟩, names⟩
  · rw [get?_setAll, get?_setAll (empty.setAll config), get?_setAll_eq_lookup apart,
      get?_setAll_eq_lookup apart', get?_setAll_eq_getLast?, lastValue?]
  · rw [names, List.mem_append, either, List.mem_eraseDups, List.mem_filter, decide_eq_true_eq]
    tauto

end Variables

namespace CommandLine

/-! ## The sources -/

theorem eq_ok_of_mapError {ε δ α : Type} {x : Except ε α} {f : ε → δ} {a : α}
    (mapped : x.mapError f = .ok a) : x = .ok a := by
  cases x with
  | error e => cases mapped
  | ok b =>
      cases mapped
      rfl

/-- Every configuration that is loaded has its variables in order. -/
theorem ordered_of_loadConfig {env : Environment} {o : Options} {c : Config}
    (loaded : loadConfig env o = .ok c) : c.Ordered := by
  have ofFile {path text : String} (read : readConfig path text = .ok c) : c.Ordered :=
    Config.ordered_of_parse (eq_ok_of_mapError read)
  unfold loadConfig at loaded
  split at loaded
  · split at loaded
    · exact ofFile loaded
    · cases loaded
  · split at loaded
    · cases loaded
      exact List.Pairwise.nil
    · split at loaded
      · exact ofFile loaded
      · split at loaded
        · cases loaded
          exact List.Pairwise.nil
        · cases loaded

theorem pairwise_lt_of_jsonVariables {env : Environment} {c : Config}
    {fromJson : List (String × Value)} (loaded : jsonVariables env c = .ok fromJson) :
    (fromJson.map (·.1)).Pairwise (· < ·) := by
  unfold jsonVariables at loaded
  split at loaded
  · cases loaded
    exact List.Pairwise.nil
  · split at loaded
    · cases loaded
    · have found := eq_ok_of_mapError loaded
      rw [JsonValue.loadVariables_eq_collect] at found
      rcases JsonValue.collect_eq_ok found with ⟨a, entries, -, -, rfl⟩
      exact JsonValue.pairwise_lt_names_inOrder entries

/-- Definitions that are all accepted, with what they define. -/
def Accepted (defines : List String) (defined : List (String × Value)) : Prop :=
  List.Forall₂ (fun text entry => parseDefinition text = .ok entry) defines defined

theorem Accepted.definedVariables_eq {defines : List String} {defined : List (String × Value)}
    (accepted : Accepted defines defined) : definedVariables defines = .ok defined := by
  induction accepted with
  | nil => rfl
  | cons here _ ih =>
      rw [definedVariables, here, ih]
      rfl

/-- Definitions fail with any one of them. -/
theorem definedVariables_error_iff (defines : List String) :
    (∃ e, definedVariables defines = .error e) ↔
      ∃ text ∈ defines, ∃ e, parseDefinition text = .error e := by
  induction defines with
  | nil => exact ⟨nofun, nofun⟩
  | cons text rest ih =>
      rw [List.exists_mem_cons_iff, ← ih, definedVariables]
      cases parseDefinition text with
      | error e => exact ⟨fun _ => .inl ⟨e, rfl⟩, fun _ => ⟨_, rfl⟩⟩
      | ok entry =>
          cases definedVariables rest with
          | error e => exact ⟨fun _ => .inr ⟨e, rfl⟩, fun _ => ⟨e, rfl⟩⟩
          | ok defined => exact ⟨nofun, fun failed => failed.elim nofun nofun⟩

/-! ## Sessions -/

theorem newSession_error_iff (env : Environment) (c : Config) (defines : List String) :
    (∃ e, newSession env c defines = .error e) ↔
      (∃ e, jsonVariables env c = .error e) ∨
        ∃ text ∈ defines, ∃ e, parseDefinition text = .error e := by
  rw [← definedVariables_error_iff]
  cases json : jsonVariables env c with
  | error e =>
      rw [newSession_of_json json]
      exact ⟨fun _ => .inl ⟨e, rfl⟩, fun _ => ⟨e, rfl⟩⟩
  | ok fromJson =>
      cases defined : definedVariables defines with
      | error e =>
          rw [newSession_of_define json defined]
          exact ⟨fun _ => .inr ⟨e, rfl⟩, fun _ => ⟨e, rfl⟩⟩
      | ok entries =>
          rcases exists_session json defined with ⟨s, opened⟩
          rw [opened]
          exact ⟨nofun, fun failed => failed.elim nofun nofun⟩

/-- A session is built unless the JSON document cannot be loaded or a definition is refused, and
then it has the variables of all three sources: definitions count more than the document, and the
document more than the configuration, whose variables are in order whenever it is loaded. -/
theorem newSession_layered (env : Environment) (defines : List String) :
    (∀ o file, loadConfig env o = .ok file → (file.apply o).Ordered) ∧
    ∀ c : Config, c.Ordered →
      (∀ fromJson defined, jsonVariables env c = .ok fromJson → Accepted defines defined →
        ∃ s d, newSession env c defines = .ok s ∧ s.context? = some d ∧
          d.vars.Layered c.vars fromJson defined) ∧
      ((∃ e, newSession env c defines = .error e) ↔
        (∃ e, jsonVariables env c = .error e) ∨
          ∃ text ∈ defines, ∃ e, parseDefinition text = .error e) := by
  refine ⟨fun o file loaded => ?_, fun c ordered => ⟨?_, ?_⟩⟩
  · have ordered : file.Ordered := ordered_of_loadConfig loaded
    exact ordered
  · intro fromJson defined json accepted
    have layered :=
      Variables.layered_setAll ordered (pairwise_lt_of_jsonVariables json) defined
    simp only [newSession, startingVariables, json, accepted.definedVariables_eq]
    exact ⟨_, _, rfl, rfl, layered⟩
  · exact newSession_error_iff env c defines

/-- A name of the configuration and the name of the document are defined as well, and a new name is
defined twice. A definition without a value leaves no session. -/
theorem newSession_layered_overlap :
    let env : Environment :=
      { input := "", terminal := false, colours := false, home := none,
        read := fun _ => .ok "\x7b\"b\":true\x7d" }
    let c : Config := { vars := [("a", 1), ("rate", 2)], jsonFile := "vars.json" }
    (∃ s d, newSession env c ["z=1", " $b = 7", "rate=5", "z=9"] = .ok s ∧ s.context? = some d ∧
      d.vars.names = ["a", "rate", "b", "z"] ∧
      ["a", "rate", "b", "z", "y"].map d.vars.get? = [some 1, some 5, some 7, some 9, none]) ∧
    ∃ e, newSession env c ["z=1", "b="] = .error e := by
  intro env c
  have ordered : c.Ordered := by decide +kernel
  have json : (jsonVariables env c).toOption = some [("b", 1)] := by decide +kernel
  constructor
  · cases loaded : jsonVariables env c with
    | error e =>
        rw [loaded] at json
        cases json
    | ok fromJson =>
        rw [loaded] at json
        cases json
        have accepted : Accepted ["z=1", " $b = 7", "rate=5", "z=9"]
            [("z", 1), ("b", 7), ("rate", 5), ("z", 9)] :=
          .cons (by decide +kernel) <| .cons (by decide +kernel) <| .cons (by decide +kernel) <|
            .cons (by decide +kernel) .nil
        rcases ((newSession_layered env _).2 c ordered).1 _ _ loaded accepted with
          ⟨s, d, opened, here, layered⟩
        refine ⟨s, d, opened, here, ?_, ?_⟩
        · rw [layered.names]
          decide +kernel
        · simp only [List.map_cons, List.map_nil, layered.get?]
          decide +kernel
  · refine ((newSession_layered env _).2 c ordered).2.mpr (.inr ⟨"b=", by decide, ?_⟩)
    exact ⟨.badValue "b=", by decide +kernel⟩

end CommandLine

end ReversePolish
