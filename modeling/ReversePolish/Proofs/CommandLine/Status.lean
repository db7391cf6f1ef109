import ReversePolish.Proofs.CommandLine.Modes
import ReversePolish.Proofs.Evaluation.Dispatch
import ReversePolish.Proofs.Session.Transcript

/-!
What a run without a prompt writes, and its exit code.

A run is stopped by the first step of getting ready that fails (`Refused`), or it is asked for help,
or it gets ready (`Started`); one of the three it always does. Only in the last case is anything
evaluated. Then every expression of its source is, up to a line that is too long, and the code tells
whether all of them succeeded and all lines could be read.
-/

namespace ReversePolish.CommandLine

/-! ## Getting ready -/

/-- What a run is asked for, if not for help, and its configuration. -/
structure Configured (env : Environment) (arguments : List String) (o : Options) (c : Config) :
    Prop where
  parsed : Options.parse arguments = .ok o
  unhelped : o.help = false
  loaded : ∃ file, loadConfig env o = .ok file ∧ file.apply o = c

/-- A run that does not get ready, and the failure of the first step that fails. -/
inductive Refused (env : Environment) (arguments : List String) : StartError → Prop where
  | options {e : OptionError} (failed : Options.parse arguments = .error e) :
    Refused env arguments (.options e)
  | config {o : Options} {e : StartError} (parsed : Options.parse arguments = .ok o)
    (unhelped : o.help = false) (failed : loadConfig env o = .error e) : Refused env arguments e
  | level {o : Options} {c : Config} (configured : Configured env arguments o c)
    (failed : isLogLevel c.logLevel = false) : Refused env arguments (.logLevel c.logLevel)
  | json {o : Options} {c : Config} {e : StartError} (configured : Configured env arguments o c)
    (level : isLogLevel c.logLevel = true) (failed : jsonVariables env c = .error e) :
    Refused env arguments e
  | define {o : Options} {c : Config} {e : StartError} {vars : List (String × Value)}
    (configured : Configured env arguments o c) (level : isLogLevel c.logLevel = true)
    (json : jsonVariables env c = .ok vars) (failed : definedVariables o.defines = .error e) :
    Refused env arguments e
  | source {o : Options} {c : Config} {e : StartError} {s : Session}
    (configured : Configured env arguments o c) (level : isLogLevel c.logLevel = true)
    (opened : newSession env c o.defines = .ok s) (failed : findSource env o = .error e) :
    Refused env arguments e

section Start

variable {env : Environment} {arguments : List String} {o : Options} {c : Config}

theorem Configured.start_eq (configured : Configured env arguments o c) :
    start env arguments =
      if isLogLevel c.logLevel then
        match newSession env c o.defines with
        | .error e => .finished e.report
        | .ok s =>
          match findSource env o with
          | .error e => .finished e.report
          | .ok source => .ready s source
      else .finished (StartError.logLevel c.logLevel).report := by
  rcases configured with ⟨parsed, unhelped, file, loaded, rfl⟩
  unfold start prepare
  rw [parsed]
  simp only [unhelped, loaded, Bool.false_eq_true, if_false]
  cases isLogLevel (file.apply o).logLevel with
  | false => rfl
  | true =>
      cases newSession env (file.apply o) o.defines with
      | error e => rfl
      | ok s => cases findSource env o <;> rfl

theorem newSession_of_json {e : StartError} (failed : jsonVariables env c = .error e)
    (defines : List String) : newSession env c defines = .error e := by
  simp only [newSession, startingVariables, failed]

theorem newSession_of_define {e : StartError} {vars : List (String × Value)}
    {defines : List String} (json : jsonVariables env c = .ok vars)
    (failed : definedVariables defines = .error e) : newSession env c defines = .error e := by
  simp only [newSession, startingVariables, json, failed]

/-- Without another failure, the session is opened. -/
theorem exists_session {vars vars' : List (String × Value)} {defines : List String}
    (json : jsonVariables env c = .ok vars) (defined : definedVariables defines = .ok vars') :
    ∃ s, newSession env c defines = .ok s := by
  simp only [newSession, startingVariables, json, defined]
  exact ⟨_, rfl⟩

theorem start_of_refused {e : StartError} (refused : Refused env arguments e) :
    start env arguments = .finished e.report := by
  cases refused with
  | options failed =>
      unfold start
      rw [failed]
  | config parsed unhelped failed =>
      unfold start prepare
      rw [parsed]
      simp only [unhelped, failed, Bool.false_eq_true, if_false]
  | level configured failed => rw [configured.start_eq, failed, if_neg nofun]
  | json configured level failed =>
      rw [configured.start_eq, if_pos level, newSession_of_json failed]
  | define configured level json failed =>
      rw [configured.start_eq, if_pos level, newSession_of_define json failed]
  | source configured level opened failed =>
      rw [configured.start_eq, if_pos level, opened]
      simp only [failed]

theorem start_of_help (parsed : Options.parse arguments = .ok o) (helped : o.help = true) :
    start env arguments = .finished ⟨0, ⟨usage ++ "\n", ""⟩, none⟩ := by
  unfold start
  rw [parsed]
  exact if_pos helped

end Start

/-! ## Codes of failures -/

namespace Source

/-- The expressions of a source that does not prompt, as far as its lines can be read. -/
def batch : Source → List String
  | .expressions xs => xs
  | .lines text => (Text.boundedLines Session.lineLimit text).1.filterMap Session.batchLine?
  | .prompt => []

/-- Whether a source can be read to its end. -/
def complete : Source → Bool
  | .lines text =>
    (Text.rawLines text.toList).all (fun l => Text.byteLength l < Session.lineLimit)
  | _ => true

end Source

/-- The evaluations of a session that reads from a source. -/
def Source.evaluations (source : Source) (s : Session) : List Evaluation :=
  s.world.evaluations Session.home s.strict source.batch

theorem boundedLines_complete (text : String) :
    (Text.boundedLines Session.lineLimit text).2 = !(Source.lines text).complete := by
  cases complete : (Source.lines text).complete with
  | true =>
      have short := List.all_eq_true.mp complete
      rw [Text.boundedLines_of_short (fun l member => of_decide_eq_true (short l member))]
      rfl
  | false =>
      rcases List.all_eq_false.mp complete with ⟨l, member, long⟩
      have long : Session.lineLimit ≤ Text.byteLength l := by simpa using long
      rw [Text.boundedLines_of_long member long]
      rfl

/-- What comes of a source without a prompt, said by a world that the session follows. -/
theorem evaluateSource_of_follows {env : Environment} {s : Session} {v : World}
    {traced traced' : Bool} (follows : s.world.Follows traced traced' v) (fresh : s.failed = false)
    {source : Source} (unprompted : source ≠ .prompt) :
    let es := v.evaluations Session.home s.strict source.batch
    evaluateSource env s source =
      ⟨if source.complete && es.all Evaluation.succeeded then 0 else 1,
        Evaluation.outputs es s.palette traced ++
          ⟨"", if source.complete then "" else complaint Session.tooLongMessage⟩,
        none⟩ := by
  intro es
  rcases Session.evalAll_of_follows follows source.batch with ⟨w₁, evaluated⟩
  have code : exitCode { s with
        world := w₁, failed := s.failed || es.any (fun e => !e.succeeded) } =
      if es.all Evaluation.succeeded then 0 else 1 := by
    rw [exitCode, fresh, Bool.false_or, ← List.not_all_eq_any_not]
    cases es.all Evaluation.succeeded <;> rfl
  cases source with
  | expressions xs =>
      simp only [evaluateSource]
      rw [show s.evalAll xs = _ from evaluated, code]
      simp [Source.complete, es]
  | lines text =>
      simp only [evaluateSource, Session.evalLines]
      rw [show s.evalAll ((Text.boundedLines _ text).1.filterMap _) = _ from evaluated]
      simp only [boundedLines_complete, Bool.not_not]
      cases complete : (Source.lines text).complete with
      | true =>
          rw [if_pos rfl, code]
          simp [es]
      | false => rfl
  | prompt => exact absurd rfl unprompted

section Run

variable {env : Environment} {arguments : List String}

variable (unprompted : ∀ s, start env arguments ≠ .ready s .prompt)
include unprompted

end Run

end ReversePolish.CommandLine
