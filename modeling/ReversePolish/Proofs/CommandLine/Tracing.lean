import ReversePolish.Proofs.CommandLine.Status
import ReversePolish.Proofs.Session.Tracing

/-!
Runs with tracing and without.

Asking for traces in front of other arguments changes the configuration at one place, and so the
session at one place: its hook. What the two runs write to the second output is made of the same
entries, one for each evaluation and for each line of a prompt; an entry is the message that the run
without traces writes, and the lines that tracing puts in front of it.
-/

namespace ReversePolish.CommandLine

/-! ## Entries -/

/-- A part of what is written to the second output. -/
structure Entry where
  /-- The lines that are written if tokens are traced. -/
  traces : List String
  /-- What is written in any case. -/
  message : String
  deriving DecidableEq

/-- An entry with its traces. -/
def Entry.traced (e : Entry) : String :=
  String.join e.traces ++ e.message

/-- The entry of an evaluation. -/
def Entry.ofEvaluation (p : Palette) (e : Evaluation) : Entry where
  traces := e.looked.map (fun seen => p.trace seen.1 seen.2)
  message := e.message p

namespace Prompt

/-- Whether a line is evaluated: it is neither blank nor a command. -/
def evaluates (line : Text.Fragment) : Bool :=
  !line.trim.isEmpty && !line.trim.startsWithChar ':'

/-- The entry of a line at a prompt that does not trace. -/
def entry (p : Prompt) (line : Text.Fragment) : Entry where
  traces :=
    if evaluates line then
      (p.session.lookedAt line.trim).map (fun seen => p.session.palette.trace seen.1 seen.2)
    else []
  message := (p.answer line).2.1.err

/-- The entries of lines, up to one that asks to leave. -/
def entries (p : Prompt) : List Text.Fragment → List Entry
  | [] => []
  | line :: rest =>
    p.entry line :: if (p.answer line).2.2 then [] else (p.answer line).1.entries rest

end Prompt

/-- The entries of a session that does not trace, by its source. -/
def Source.entries (env : Environment) (s : Session) : Source → List Entry
  | .prompt => Prompt.entries ⟨s, loadHistory env⟩ (Prompt.lines env.input)
  | source =>
    (source.evaluations s).map (Entry.ofEvaluation s.palette) ++
      [⟨[], if source.complete then "" else complaint Session.tooLongMessage⟩]

/-- The entries of a run that does not trace. -/
def entries (env : Environment) (arguments : List String) : List Entry :=
  match start env arguments with
  | .finished r => [⟨[], r.output.err⟩]
  | .ready s source => source.entries env s

/-! ## Two prompts -/

namespace Prompt

/-- A prompt whose session traces, and one whose session does not. -/
structure Shadows (p q : Prompt) : Prop where
  session : p.session.Shadows q.session
  history : p.history = q.history

theorem run_cons (p : Prompt) (line : Text.Fragment) (rest : List Text.Fragment) :
    p.run (line :: rest) =
      if (p.answer line).2.2 then ((p.answer line).1, ⟨promptText, ""⟩ ++ (p.answer line).2.1)
      else
        (((p.answer line).1.run rest).1,
          ⟨promptText, ""⟩ ++ (p.answer line).2.1 ++ ((p.answer line).1.run rest).2) := rfl

variable {p q : Prompt} (shadows : p.Shadows q)
include shadows

/-- Both answer a line. -/
theorem answer_shadows (line : Text.Fragment) :
    (p.answer line).1.Shadows (q.answer line).1 ∧
      (p.answer line).2.1.out = (q.answer line).2.1.out ∧
      (p.answer line).2.1.err = (q.entry line).traced ∧
      (p.answer line).2.2 = (q.answer line).2.2 := by
  unfold Entry.traced entry evaluates answer
  dsimp only
  cases line.trim.isEmpty with
  | true => exact ⟨shadows, rfl, rfl, rfl⟩
  | false =>
      simp only [handle, shadows.history, Bool.false_eq_true, if_false]
      cases line.trim.startsWithChar ':' with
      | true =>
          have answers := Session.commandFragment_answers shadows.session line.trim
          exact ⟨⟨answers.sessions, rfl⟩, answers.out, answers.err, answers.flag⟩
      | false =>
          have answers := Session.evalFragment_answers shadows.session line.trim true
          exact ⟨⟨answers.sessions, rfl⟩, answers.out, answers.err, rfl⟩

/-- Both answer lines one after the other. -/
theorem run_shadows (lines : List Text.Fragment) :
    (p.run lines).1.history = (q.run lines).1.history ∧
      (p.run lines).2.out = (q.run lines).2.out ∧
      (q.run lines).2.err = String.join ((q.entries lines).map Entry.message) ∧
      (p.run lines).2.err = String.join ((q.entries lines).map Entry.traced) := by
  induction lines generalizing p q with
  | nil => exact ⟨shadows.history, rfl, rfl, rfl⟩
  | cons line rest ih =>
      rcases answer_shadows shadows line with ⟨shadows₁, out, err, leave⟩
      have message : (q.entry line).message = (q.answer line).2.1.err := rfl
      rw [run_cons, run_cons, entries, leave]
      cases (q.answer line).2.2 with
      | true => simp [shadows₁.history, out, err, message]
      | false =>
          rcases ih shadows₁ with ⟨history, outs, messages, traces⟩
          simp [history, out, err, message, outs, messages, traces]

end Prompt

/-! ## Two sources -/

theorem join_message_ofEvaluation (es : List Evaluation) (p : Palette) :
    (Evaluation.outputs es p false).err =
      String.join ((es.map (Entry.ofEvaluation p)).map Entry.message) := by
  rw [List.map_map]
  simp only [Evaluation.outputs, Bool.false_eq_true, if_false, String.empty_append]
  rfl

theorem join_traced_ofEvaluation (es : List Evaluation) (p : Palette) :
    (Evaluation.outputs es p true).err =
      String.join ((es.map (Entry.ofEvaluation p)).map Entry.traced) := by
  rw [List.map_map]
  rfl

/-- What comes of a source in a session that traces and in one that does not. -/
theorem evaluateSource_shadows (env : Environment) {s t : Session} (shadows : s.Shadows t)
    (fresh : t.failed = false) (source : Source) :
    (evaluateSource env s source).code = (evaluateSource env t source).code ∧
      (evaluateSource env s source).output.out = (evaluateSource env t source).output.out ∧
      (evaluateSource env s source).history = (evaluateSource env t source).history ∧
      (evaluateSource env t source).output.err =
        String.join ((source.entries env t).map Entry.message) ∧
      (evaluateSource env s source).output.err =
        String.join ((source.entries env t).map Entry.traced) := by
  by_cases prompted : source = .prompt
  · subst prompted
    have prompts : Prompt.Shadows ⟨s, loadHistory env⟩ ⟨t, loadHistory env⟩ := ⟨shadows, rfl⟩
    rcases Prompt.run_shadows prompts (Prompt.lines env.input) with ⟨history, out, plain, traced⟩
    simp [evaluateSource, Source.entries, shadows.palette, history, out, plain, traced]
  · have fresh' : s.failed = false := shadows.failed.trans fresh
    have entries : source.entries env t =
        (source.evaluations t).map (Entry.ofEvaluation t.palette) ++
          [⟨[], if source.complete then "" else complaint Session.tooLongMessage⟩] := by
      cases source with
      | prompt => exact absurd rfl prompted
      | _ => rfl
    rw [evaluateSource_of_follows shadows.world fresh' prompted,
      evaluateSource_of_follows shadows.plain fresh prompted, entries, shadows.strict,
      shadows.palette]
    refine ⟨rfl, rfl, rfl, ?_, ?_⟩
    · rw [Output.err_append, join_message_ofEvaluation]
      simp [Source.evaluations]
    · rw [Output.err_append, join_traced_ofEvaluation]
      simp [Source.evaluations, Entry.traced]

/-! ## Asking for traces -/

namespace Options

theorem foldl_add_trace (found : List Occurrence) (o : Options) :
    found.foldl add { o with trace := true } = { found.foldl add o with trace := true } := by
  induction found generalizing o with
  | nil => rfl
  | cons occurrence found ih =>
      have first : add { o with trace := true } occurrence =
          { add o occurrence with trace := true } := by
        rcases occurrence with s | ⟨s, value⟩ <;> cases s <;> rfl
      rw [List.foldl_cons, first, ih, List.foldl_cons]

/-- What is asked for with traces in front. -/
theorem parse_trace (arguments : List String) :
    parse ("-t" :: arguments) = (parse arguments).map (fun o => { o with trace := true }) := by
  have read : readOccurrences none ("-t" :: arguments) =
      (readOccurrences none arguments).map (fun read => (.switch .trace :: read.1, read.2)) := by
    have option : "-t" ≠ "--" := by decide
    have characters : "-t".toList = ['-', 't'] := by decide
    have cluster : readCluster ['t'] = .ok ([.switch .trace], none) := rfl
    rw [readOccurrences, if_neg option]
    simp only [characters, cluster]
    cases readOccurrences none arguments <;> rfl
  unfold parse
  rw [read]
  rcases readOccurrences none arguments with e | ⟨found, left⟩
  · rfl
  · cases left with
    | cons argument left => rfl
    | nil =>
        have behind : found.foldl add (add {} (.switch .trace)) =
            { found.foldl add {} with trace := true } :=
          foldl_add_trace found {}
        simp only [Except.map, List.foldl_cons, behind]
        split <;> rfl

end Options

/-- A run that traces without being asked to in front of its arguments. -/
def Tracing (env : Environment) (arguments : List String) : Prop :=
  ∃ o c, Configured env arguments o c ∧ c.trace = true

section Start

variable {env : Environment} {arguments : List String} {o : Options} {c : Config}

/-- The configuration with traces asked for. -/
theorem Configured.trace (configured : Configured env arguments o c) :
    Configured env ("-t" :: arguments) { o with trace := true } { c with trace := true } := by
  rcases configured with ⟨parsed, unhelped, file, loaded, rfl⟩
  refine ⟨?_, unhelped, file, loaded, ?_⟩
  · rw [Options.parse_trace, parsed]
    rfl
  · simp [Config.apply]

/-- The sessions differ in tracing alone. -/
theorem newSession_trace (env : Environment) (untraced : c.trace = false) (defines : List String) :
    (∃ e, newSession env c defines = .error e ∧
      newSession env { c with trace := true } defines = .error e) ∨
      ∃ s t, newSession env { c with trace := true } defines = .ok s ∧
        newSession env c defines = .ok t ∧ s.Shadows t ∧ t.failed = false := by
  have vars : startingVariables env { c with trace := true } defines =
      startingVariables env c defines := rfl
  unfold newSession
  rw [vars]
  cases startingVariables env c defines with
  | error e => exact .inl ⟨e, rfl, rfl⟩
  | ok vars =>
      refine .inr ⟨_, _, rfl, rfl, ⟨?_, ?_, rfl, rfl, rfl⟩, rfl⟩
      · rw [untraced]
        exact World.follows_new c.contextOptions vars true false
      · rw [untraced]
        exact World.follows_new c.contextOptions vars false false

/-- A run that gets no configuration ends in the same way. -/
theorem start_trace_of_unconfigured (unconfigured : ¬∃ o c, Configured env arguments o c) :
    ∃ r, start env arguments = .finished r ∧ start env ("-t" :: arguments) = .finished r := by
  have asked := Options.parse_trace arguments
  cases parsed : Options.parse arguments with
  | error e =>
      rw [parsed] at asked
      exact ⟨_, start_of_refused (.options parsed), start_of_refused (.options asked)⟩
  | ok o =>
      rw [parsed] at asked
      cases help : o.help with
      | true => exact ⟨_, start_of_help parsed help, start_of_help asked help⟩
      | false =>
          cases loaded : loadConfig env o with
          | error e =>
              exact ⟨_, start_of_refused (.config parsed help loaded),
                start_of_refused (.config asked help loaded)⟩
          | ok file => exact absurd ⟨o, _, parsed, help, file, loaded, rfl⟩ unconfigured

theorem Configured.start_trace (configured : Configured env arguments o c)
    (untraced : c.trace = false) :
    (∃ r, start env arguments = .finished r ∧ start env ("-t" :: arguments) = .finished r) ∨
      ∃ s t source, start env ("-t" :: arguments) = .ready s source ∧
        start env arguments = .ready t source ∧ s.Shadows t ∧ t.failed = false := by
  have source : findSource env { o with trace := true } = findSource env o := rfl
  rw [configured.start_eq, configured.trace.start_eq, source]
  cases isLogLevel c.logLevel with
  | false => exact .inl ⟨_, rfl, rfl⟩
  | true =>
      rcases newSession_trace env untraced o.defines with
        ⟨e, failed, failed'⟩ | ⟨s, t, opened', opened, shadows, fresh⟩
      · rw [failed, failed']
        exact .inl ⟨_, rfl, rfl⟩
      · rw [opened, opened']
        cases findSource env o with
        | error e => exact .inl ⟨_, rfl, rfl⟩
        | ok source => exact .inr ⟨s, t, source, rfl, rfl, shadows, fresh⟩

/-- A run that traces anyway. -/
theorem start_of_tracing (tracing : Tracing env arguments) :
    start env ("-t" :: arguments) = start env arguments := by
  rcases tracing with ⟨o, c, configured, traced⟩
  have same : { c with trace := true } = c := by
    rw [← traced]
  rw [configured.trace.start_eq, configured.start_eq, same]
  rfl

/-- How a run begins if traces are asked for that were not asked for before. -/
theorem start_of_not_tracing (untraced : ¬Tracing env arguments) :
    (∃ r, start env arguments = .finished r ∧ start env ("-t" :: arguments) = .finished r) ∨
      ∃ s t source, start env ("-t" :: arguments) = .ready s source ∧
        start env arguments = .ready t source ∧ s.Shadows t ∧ t.failed = false := by
  by_cases configured : ∃ o c, Configured env arguments o c
  · rcases configured with ⟨o, c, configured⟩
    refine configured.start_trace ?_
    rw [← Bool.not_eq_true]
    exact fun traced => untraced ⟨o, c, configured, traced⟩
  · exact .inl (start_trace_of_unconfigured configured)

end Start

/-- Tracing changes nothing but the traces. Asking for them in front of other arguments changes
neither the exit code nor what is written to the first output, nor the history of a prompt. If the
run traces anyway, it changes nothing; if not, the second output gets one line for each token that
an evaluation looks at, in front of the message of that evaluation. -/
theorem run_trace (env : Environment) (arguments : List String) :
    (run env ("-t" :: arguments)).code = (run env arguments).code ∧
      (run env ("-t" :: arguments)).output.out = (run env arguments).output.out ∧
      (run env ("-t" :: arguments)).history = (run env arguments).history ∧
      (Tracing env arguments →
        (run env ("-t" :: arguments)).output.err = (run env arguments).output.err) ∧
      (¬Tracing env arguments →
        (run env arguments).output.err =
            String.join ((entries env arguments).map Entry.message) ∧
          (run env ("-t" :: arguments)).output.err =
            String.join ((entries env arguments).map Entry.traced)) := by
  by_cases tracing : Tracing env arguments
  · have same : run env ("-t" :: arguments) = run env arguments := by
      rw [run, run, start_of_tracing tracing]
    rw [same]
    exact ⟨rfl, rfl, rfl, fun _ => rfl, fun untraced => absurd tracing untraced⟩
  · unfold run entries
    rcases start_of_not_tracing tracing with
      ⟨r, plain, traced⟩ | ⟨s, t, source, traced, plain, shadows, fresh⟩
    · rw [plain, traced]
      refine ⟨rfl, rfl, rfl, fun _ => rfl, fun _ => ?_⟩
      simp [Entry.traced]
    · rw [plain, traced]
      rcases evaluateSource_shadows env shadows fresh source with
        ⟨code, out, history, messages, traces⟩
      exact ⟨code, out, history, fun traced => absurd traced tracing, fun _ => ⟨messages, traces⟩⟩

/-- A prompt at which two lines are evaluated, and a command between them fails. -/
theorem run_trace_prompt :
    let env := surroundings "1 2\n:strict\n3" true "" ""
    ¬Tracing env [] ∧ (run env ["-t"]).code = (run env []).code ∧
      (run env []).output.err = "error: usage: :strict on|off\n" ∧
      (run env ["-t"]).output.err =
        "  . 1            depth=0\n  . 2            depth=1\n" ++
          ("error: usage: :strict on|off\n" ++ "  . 3            depth=2\n") := by
  intro env
  have untraced : ¬Tracing env [] := by
    rintro ⟨o, c, ⟨parsed, -, file, loaded, rfl⟩, traced⟩
    cases parsed
    cases loaded
    cases traced
  rcases run_trace env [] with ⟨code, -, -, -, entries⟩
  rcases entries untraced with ⟨plain, traced⟩
  refine ⟨untraced, code, ?_, ?_⟩
  · rw [plain]
    decide +kernel
  · rw [traced]
    decide +kernel

end ReversePolish.CommandLine
