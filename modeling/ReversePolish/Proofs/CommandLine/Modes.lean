import ReversePolish.CommandLine.Run
import ReversePolish.Proofs.Session.Batch

/-!
The ways of giving expressions to a run that does not prompt.

Expressions are arguments, or lines of a file, or lines of the standard input, with an option that
asks for them or without. The other options are read in the same way beside each of these, so the
session that is opened is the same; then it evaluates the same expressions, because the text holds
them. The limit on the length of a line is the one place where the ways differ: an argument has no
such limit, and in a text a carriage return at the end of a line counts.
-/

namespace ReversePolish.CommandLine

/-! ## Options beside other options -/

theorem readOccurrences_setting (s : Setting) (value : String) (rest : List String) :
    readOccurrences none (String.ofList ['-', s.letter] :: value :: rest) =
      (readOccurrences none rest).map (fun read => (.setting s value :: read.1, read.2)) := by
  have argument : ∀ s : Setting, String.ofList ['-', s.letter] ≠ "--" ∧
      (String.ofList ['-', s.letter]).toList = ['-', s.letter] ∧
      readCluster [s.letter] = .ok ([], some s) := by
    intro s
    cases s <;> exact ⟨by decide, by decide, rfl⟩
  obtain ⟨option, characters, cluster⟩ := argument s
  rw [readOccurrences, if_neg option]
  simp only [characters, cluster, readOccurrences]
  cases readOccurrences none rest <;> rfl

/-- Arguments for a list of expressions. -/
def expressionArguments (xs : List String) : List String :=
  xs.flatMap (fun x => ["-e", x])

/-- Arguments whose options say nothing about where expressions come from. -/
def SourceFree (arguments : List String) : Prop :=
  ∀ found left, readOccurrences none arguments = .ok (found, left) →
    ∀ value, .setting .expression value ∉ found ∧ .setting .file value ∉ found

theorem readOccurrences_expressions (xs rest : List String) :
    readOccurrences none (expressionArguments xs ++ rest) =
      (readOccurrences none rest).map
        (fun read => (xs.map (.setting .expression) ++ read.1, read.2)) := by
  induction xs with
  | nil =>
      show _ = (readOccurrences none rest).map id
      rw [Except.map_id]
      rfl
  | cons x xs ih =>
      have first := readOccurrences_setting .expression x (expressionArguments xs ++ rest)
      rw [ih] at first
      refine first.trans ?_
      cases readOccurrences none rest <;> rfl

namespace Options

theorem foldl_add_expressions (xs : List String) (o : Options) :
    (xs.map (.setting .expression)).foldl add o =
      { o with expressions := o.expressions ++ xs } := by
  induction xs generalizing o with
  | nil => rw [List.append_nil]; rfl
  | cons x xs ih =>
      rw [List.map_cons, List.foldl_cons, ih]
      show { o with expressions := o.expressions ++ [x] ++ xs } = _
      rw [List.append_assoc, List.singleton_append]

/-- Where expressions come from, and what the other options say, are independent. -/
theorem foldl_add_of_free {found : List Occurrence}
    (free : ∀ value, .setting .expression value ∉ found ∧ .setting .file value ∉ found)
    (o : Options) (xs : List String) (file : String) :
    found.foldl add { o with expressions := xs, file := file } =
      { found.foldl add o with expressions := xs, file := file } := by
  induction found generalizing o with
  | nil => rfl
  | cons occurrence found ih =>
      have rest : ∀ value, .setting .expression value ∉ found ∧ .setting .file value ∉ found :=
        fun value => ⟨fun member => (free value).1 (List.mem_cons_of_mem _ member),
          fun member => (free value).2 (List.mem_cons_of_mem _ member)⟩
      have first : add { o with expressions := xs, file := file } occurrence =
          { add o occurrence with expressions := xs, file := file } := by
        rcases occurrence with s | ⟨s, value⟩
        · cases s <;> rfl
        · cases s with
          | expression => exact absurd List.mem_cons_self (free value).1
          | file => exact absurd List.mem_cons_self (free value).2
          | _ => rfl
      rw [List.foldl_cons, first, ih rest, List.foldl_cons]

/-- What a command line asks for with options of the source in front of others. -/
theorem parse_of_free {others arguments : List String} (free : SourceFree others)
    {source : List Occurrence}
    (read : readOccurrences none arguments =
      (readOccurrences none others).map (fun read => (source ++ read.1, read.2)))
    {xs : List String} {file : String}
    (asked : source.foldl add {} = { expressions := xs, file := file })
    (apart : ¬(file ≠ "" ∧ xs ≠ [])) :
    parse arguments =
      (parse others).map (fun o => { o with expressions := xs, file := file }) := by
  unfold parse
  rw [read]
  rcases plain : readOccurrences none others with e | ⟨found, left⟩
  · rfl
  · cases left with
    | cons argument left => rfl
    | nil =>
        have free := free found [] plain
        have before : found.foldl add {} =
            { found.foldl add {} with expressions := [], file := "" } :=
          foldl_add_of_free free {} [] ""
        have behind := foldl_add_of_free free {} xs file
        simp only [Except.map, List.foldl_append, asked]
        rw [behind, before]
        simp [apart]

theorem parse_expressionArguments {others : List String} (free : SourceFree others)
    (xs : List String) :
    parse (expressionArguments xs ++ others) =
      (parse others).map (fun o => { o with expressions := xs, file := "" }) :=
  parse_of_free free (readOccurrences_expressions xs others) (foldl_add_expressions xs {})
    (by simp)

theorem parse_file {others : List String} (free : SourceFree others) (file : String) :
    parse ("-f" :: file :: others) =
      (parse others).map (fun o => { o with expressions := [], file := file }) := by
  have read : readOccurrences none ("-f" :: file :: others) =
      (readOccurrences none others).map (fun read => ([.setting .file file] ++ read.1, read.2)) :=
    readOccurrences_setting .file file others
  exact parse_of_free free read rfl (by simp)

/-- Without options of a source, none is asked for. -/
theorem sources_of_free {others : List String} (free : SourceFree others) {o : Options}
    (parsed : parse others = .ok o) : o = { o with expressions := [], file := "" } := by
  have same := parse_expressionArguments free []
  rw [show expressionArguments [] ++ others = others from rfl, parsed] at same
  exact Except.ok.inj same

end Options

/-! ## Environments -/

/-- The session of a run, which is opened before its expressions are looked for. -/
def openSession (env : Environment) (o : Options) : Except StartError Session :=
  match loadConfig env o with
  | .error e => .error e
  | .ok file =>
    let c := file.apply o
    if isLogLevel c.logLevel then newSession env c o.defines else .error (.logLevel c.logLevel)

theorem prepare_eq (env : Environment) (o : Options) :
    prepare env o =
      match openSession env o with
      | .error e => .error e
      | .ok s =>
        match findSource env o with
        | .error e => .error e
        | .ok source => .ok (s, source) := by
  unfold prepare openSession
  cases loadConfig env o with
  | error e => rfl
  | ok file =>
      dsimp only
      split <;> rfl

/-- The files that a run reads to open its session. -/
def sessionFiles (env : Environment) (o : Options) : List String :=
  (if o.config ≠ "" then [o.config] else (env.inHome? configName).toList) ++
    match loadConfig env o with
    | .ok c => [(c.apply o).jsonFile].filter (· ≠ "")
    | .error _ => []

/-- Environments that differ at most in the standard input and in files that are not read to open a
session. -/
structure Environment.Alike (env other : Environment) (o : Options) : Prop where
  colours : other.colours = env.colours
  home : other.home = env.home
  read : ∀ name ∈ sessionFiles env o, other.read name = env.read name

section Alike

variable {env other : Environment} {o : Options} (alike : env.Alike other o)
include alike

theorem loadConfig_of_alike : loadConfig other o = loadConfig env o := by
  have home : other.inHome? configName = env.inHome? configName := by
    unfold Environment.inHome?
    rw [alike.home]
  unfold loadConfig
  split
  · rename_i asked
    have listed : o.config ∈ sessionFiles env o := by
      rw [sessionFiles, if_pos asked]
      exact List.mem_append_left _ List.mem_cons_self
    rw [alike.read _ listed]
  · rename_i unasked
    rw [home]
    cases found : env.inHome? configName with
    | none => rfl
    | some path =>
        have listed : path ∈ sessionFiles env o := by
          rw [sessionFiles, if_neg unasked, found]
          exact List.mem_append_left _ List.mem_cons_self
        dsimp only
        rw [alike.read _ listed]

theorem openSession_of_alike : openSession other o = openSession env o := by
  unfold openSession
  rw [loadConfig_of_alike alike]
  cases loaded : loadConfig env o with
  | error e => rfl
  | ok file =>
      have json : jsonVariables other (file.apply o) = jsonVariables env (file.apply o) := by
        unfold jsonVariables
        split
        · rfl
        · rename_i asked
          have listed : (file.apply o).jsonFile ∈ sessionFiles env o := by
            rw [sessionFiles, loaded]
            exact List.mem_append_right _ (by simpa using asked)
          rw [alike.read _ listed]
      simp only [newSession, startingVariables, json, alike.colours]

end Alike

/-! ## Runs -/

/-- What a run comes to that is asked for expressions. -/
def expressionReport (env : Environment) (o : Options) (xs : List String) : Report :=
  if o.help then ⟨0, ⟨usage ++ "\n", ""⟩, none⟩
  else
    match openSession env o with
    | .error e => e.report
    | .ok s => evaluateSource env s (.expressions xs)

theorem evaluateSource_lines {text : String} {xs : List String} (holds : Session.Holds text xs)
    (env other : Environment) (s : Session) :
    evaluateSource other s (.lines text) = evaluateSource env s (.expressions xs) := by
  simp only [evaluateSource, Session.evalLines_of_holds holds]
  rfl

section Run

variable {env other : Environment} {o : Options} {arguments xs : List String} {file : String}

/-- A run depends on its environment through the session and the source alone. -/
theorem run_of_source (alike : env.Alike other o) {ys : List String}
    (parsed : Options.parse arguments = .ok { o with expressions := ys, file := file })
    {source : Source}
    (found : findSource other { o with expressions := ys, file := file } = .ok source)
    (same : ∀ s, evaluateSource other s source = evaluateSource env s (.expressions xs)) :
    run other arguments = expressionReport env o xs := by
  have opened : openSession other { o with expressions := ys, file := file } =
      openSession env o :=
    openSession_of_alike ⟨alike.colours, alike.home, alike.read⟩
  unfold run start expressionReport
  rw [parsed]
  dsimp only
  rw [prepare_eq, opened, found]
  cases o.help with
  | true => rfl
  | false =>
      cases openSession env o with
      | error e => rfl
      | ok s => exact same s

/-- Expressions that are given as arguments. -/
theorem run_expressions (nonempty : xs ≠ [])
    (parsed : Options.parse arguments = .ok { o with expressions := xs, file := "" }) :
    run env arguments = expressionReport env o xs :=
  run_of_source ⟨rfl, rfl, fun _ _ => rfl⟩ parsed (if_pos nonempty) (fun _ => rfl)

/-- Expressions that are given as lines of a text. -/
theorem run_lines (alike : env.Alike other o)
    (parsed : Options.parse arguments = .ok { o with expressions := [], file := file })
    {text : String}
    (found : findSource other { o with expressions := [], file := file } = .ok (.lines text))
    (holds : Session.Holds text xs) : run other arguments = expressionReport env o xs :=
  run_of_source alike parsed found (evaluateSource_lines holds env other)

theorem run_of_parse_error {e : OptionError} (refused : Options.parse arguments = .error e)
    (env : Environment) : run env arguments = (StartError.options e).report := by
  unfold run start
  rw [refused]

end Run

/-- The four ways come to the same, next to whichever other options, and in whichever order and
spelling the options are given. The environments may differ in the standard input, in whether it is
a terminal, and in the files that are not read to open a session; the expressions may stand in
different texts. -/
theorem modes_agree {xs : List String} (nonempty : xs ≠ []) {others : List String}
    (free : SourceFree others) {file : String} (named : file ≠ "" ∧ file ≠ "-")
    {byExpressions byDash byFile : List String}
    (askExpressions : Options.parse byExpressions =
      Options.parse (expressionArguments xs ++ others))
    (askDash : Options.parse byDash = Options.parse ("-f" :: "-" :: others))
    (askFile : Options.parse byFile = Options.parse ("-f" :: file :: others))
    {env dashEnv fileEnv pipeEnv : Environment}
    (alike : ∀ o, Options.parse others = .ok o →
      env.Alike dashEnv o ∧ env.Alike fileEnv o ∧ env.Alike pipeEnv o)
    (dashed : Session.Holds dashEnv.input xs) {text : String}
    (readable : fileEnv.read file = .ok text) (filed : Session.Holds text xs)
    (unprompted : pipeEnv.terminal = false) (piped : Session.Holds pipeEnv.input xs) :
    run dashEnv byDash = run env byExpressions ∧
      run fileEnv byFile = run env byExpressions ∧
      run pipeEnv others = run env byExpressions := by
  rw [Options.parse_expressionArguments free] at askExpressions
  rw [Options.parse_file free] at askDash askFile
  cases parsed : Options.parse others with
  | error e =>
      rw [parsed] at askExpressions askDash askFile
      rw [run_of_parse_error askExpressions, run_of_parse_error askDash,
        run_of_parse_error askFile, run_of_parse_error parsed]
      exact ⟨rfl, rfl, rfl⟩
  | ok o =>
      obtain ⟨dashAlike, fileAlike, pipeAlike⟩ := alike o parsed
      rw [parsed] at askExpressions askDash askFile
      have plain : Options.parse others = .ok { o with expressions := [], file := "" } :=
        parsed.trans (congrArg _ (Options.sources_of_free free parsed))
      have fromFile : findSource fileEnv { o with expressions := [], file := file } =
          .ok (.lines text) := by
        simp only [findSource, if_neg named.2, if_pos named.1, readable]
        rfl
      have fromPipe : findSource pipeEnv { o with expressions := [], file := "" } =
          .ok (.lines pipeEnv.input) := by
        simp [findSource, unprompted]
      rw [run_expressions nonempty askExpressions, run_lines dashAlike askDash rfl dashed,
        run_lines fileAlike askFile fromFile filed, run_lines pipeAlike plain fromPipe piped]
      exact ⟨rfl, rfl, rfl⟩

/-- A place to run in, with one file. -/
def surroundings (input : String) (terminal : Bool) (name text : String) : Environment where
  input := input
  terminal := terminal
  colours := false
  home := none
  read := (Files.ofList [(name, text)]).read

theorem modes_agree_sums :
    let plain := "1 2 +\n4 *\n"
    let commented := "# sums\r\n\r\n1 2 +\n4 *"
    let typed := run (surroundings "" true "" "") ["-e1 2 +", "-s", "-e", "4 *"]
    run (surroundings plain true "" "") ["-sf", "-"] = typed ∧
      run (surroundings "" true "sums" commented) ["-fsums", "-s"] = typed ∧
      run (surroundings commented false "" "") ["-s"] = typed := by
  intro plain commented typed
  let xs := ["1 2 +", "4 *"]
  have free : SourceFree ["-s"] := by
    rintro found left ⟨⟩ value
    exact ⟨by simp, by simp⟩
  have inPlain : Session.Holds plain xs :=
    ⟨[⟨"1 2 +", false⟩, ⟨"4 *", false⟩], .inl (by decide), by decide, by decide +kernel⟩
  have inCommented : Session.Holds commented xs :=
    ⟨[⟨"# sums", true⟩, ⟨"", true⟩, ⟨"1 2 +", false⟩, ⟨"4 *", false⟩], .inr (by decide), by decide,
      by decide +kernel⟩
  have alike : ∀ input terminal name text o, Options.parse ["-s"] = .ok o →
      (surroundings "" true "" "").Alike (surroundings input terminal name text) o := by
    rintro input terminal name text o ⟨⟩
    exact ⟨rfl, rfl, fun name member => absurd member List.not_mem_nil⟩
  exact modes_agree (by decide : xs ≠ []) free (by decide : "sums" ≠ "" ∧ "sums" ≠ "-") rfl rfl rfl
    (fun o parsed => ⟨alike _ _ _ _ o parsed, alike _ _ _ _ o parsed, alike _ _ _ _ o parsed⟩)
    inPlain (by decide +kernel : (surroundings "" true "sums" commented).read "sums" = .ok commented)
    inCommented rfl inCommented

/-! ## At the limit -/

/-- An expression with blanks behind it. -/
def paddedOne (n : Nat) : String :=
  String.ofList ('1' :: List.replicate n ' ')

theorem toList_paddedOne (n : Nat) : (paddedOne n).toList = '1' :: List.replicate n ' ' :=
  String.toList_ofList

theorem byteLength_paddedOne (n : Nat) : Text.byteLength (paddedOne n).toList = n + 1 := by
  have blanks := Text.byteLength_replicate n ' '
  have one : (' ' : Char).utf8Size = 1 := rfl
  rw [one, Nat.mul_one] at blanks
  rw [toList_paddedOne]
  show ('1' : Char).utf8Size + Text.byteLength (List.replicate n ' ') = n + 1
  rw [blanks, Nat.add_comm]
  rfl

theorem not_mem_paddedOne (n : Nat) : '\n' ∉ (paddedOne n).toList := by
  rw [toList_paddedOne]
  simp

theorem isBlank_of_mem_replicate {n : Nat} :
    ∀ c ∈ List.replicate n ' ', Text.isBlank c = true := by
  intro c member
  rw [List.eq_of_mem_replicate member]
  decide

theorem tokenize_paddedOne (n : Nat) : Token.tokenize (paddedOne n) = ["1"] := by
  have runs : Text.runs (paddedOne n).toList = [['1']] := by
    rw [toList_paddedOne]
    exact (Text.runs_append_blanks isBlank_of_mem_replicate ['1']).trans (by decide)
  rw [Token.tokenize, Text.words, runs]
  rfl

theorem trim_paddedOne (n : Nat) : Text.trim (paddedOne n) = "1" := by
  have characters := Text.trimBlanks_append_blanks (isBlank_of_mem_replicate (n := n)) ['1']
  rw [Text.trim, toList_paddedOne]
  exact congrArg String.ofList characters

theorem isFiller_paddedOne (n : Nat) : Session.isFiller (paddedOne n) = false := by
  rw [Session.isFiller, trim_paddedOne, toList_paddedOne]
  rfl

theorem run_paddedOne (n : Nat) (input : String) :
    (run (surroundings input false "" "") ["-e", paddedOne n]).code = 0 := by
  have parsed : Options.parse ["-e", paddedOne n] =
      .ok { ({} : Options) with expressions := [paddedOne n], file := "" } := rfl
  have opened : openSession (surroundings input false "" "") {} =
      openSession (surroundings "" false "" "") {} := rfl
  have evaluated : (expressionReport (surroundings "" false "" "") {} ["1"]).code = 0 := by
    decide +kernel
  rw [run_expressions (List.cons_ne_nil _ _) parsed, ← evaluated]
  unfold expressionReport
  rw [opened]
  cases openSession (surroundings "" false "" "") {} with
  | error e => rfl
  | ok s =>
      have tokens : Token.tokenize "1" = ["1"] := by decide +kernel
      have same : s.evalAll ([paddedOne n].map (fun _ => "1")) = s.evalAll [paddedOne n] := by
        refine s.evalAll_of_tokenize_eq (fun x member => ?_)
        rw [List.mem_singleton.mp member, tokenize_paddedOne, tokens]
      simp only [evaluateSource, ← same]
      rfl

/-- A line that is too long fails a run that reads it. -/
theorem run_lines_of_long {env : Environment} {arguments : List String} {o : Options}
    {text : String} {s : Session} (parsed : Options.parse arguments = .ok o)
    (unhelped : o.help = false) (opened : openSession env o = .ok s)
    (found : findSource env o = .ok (.lines text)) {l : List Char}
    (member : l ∈ Text.rawLines text.toList) (long : Session.lineLimit ≤ Text.byteLength l) :
    (run env arguments).code = 1 := by
  have ready : start env arguments = .ready s (.lines text) := by
    unfold start
    simp only [parsed, unhelped, prepare_eq, opened, found]
    rfl
  have incomplete : (s.evalLines text).2.2 = false := by
    unfold Session.evalLines
    simp [Text.boundedLines_of_long member long]
  unfold run
  simp only [ready, evaluateSource, incomplete]
  rfl

/-- An expression that is one byte shorter than the limit is evaluated as an argument, and it cannot
be read as a line that ends with a carriage return. -/
theorem modes_differ_at_limit :
    let x := paddedOne 65534
    let env := surroundings (x ++ "\r\n") false "" ""
    ('\n' ∉ x.toList ∧ Session.isFiller x = false ∧
        Text.byteLength x.toList < Session.lineLimit) ∧
      (run env ["-e", x]).code = 0 ∧ (run env ["-f", "-"]).code = 1 := by
  intro x env
  refine ⟨⟨not_mem_paddedOne _, isFiller_paddedOne _, by rw [byteLength_paddedOne]; decide⟩,
    run_paddedOne _ _, ?_⟩
  have lines : (x ++ "\r\n").toList = [x.toList ++ ['\r']].flatMap (· ++ ['\n']) := by
    rw [String.toList_append]
    simp
  have raw : Text.rawLines (x ++ "\r\n").toList = [x.toList ++ ['\r']] := by
    rw [lines]
    refine Text.rawLines_ended (fun l member => ?_)
    rw [List.mem_singleton.mp member]
    exact fun inside => (List.mem_append.mp inside).elim (not_mem_paddedOne _) (by decide)
  have level : isLogLevel (({} : Config).apply { file := "-" }).logLevel = true := by
    decide +kernel
  have opened : openSession env { file := "-" } =
      newSession env (({} : Config).apply { file := "-" }) [] := if_pos level
  refine run_lines_of_long rfl rfl opened rfl (raw ▸ List.mem_cons_self) ?_
  rw [Text.byteLength_append, byteLength_paddedOne]
  decide

end ReversePolish.CommandLine
