import ReversePolish.Proofs.CommandLine.History
import ReversePolish.Proofs.CommandLine.Tracing
import ReversePolish.Proofs.Session.Command

/-!
The prompt as a function of the lines that are entered.

Whether a line asks to leave can be read off the line, whatever the session (`Prompt.leaves`). So
the lines that are answered are known before any of them is: all up to the first that asks to leave
(`Prompt.answered`). What the prompt writes and what it puts into the history is then a matter of
those lines alone (`Prompt.run_eq`), and no text behind them counts (`Prompt.answered_append`).

The lines are those of the text that is read, except that a line which is too long for one reading
is taken for several.
-/

namespace ReversePolish

/-! ## Answers of a session -/

namespace Session

theorem context?_isSome_iff (s : Session) :
    s.context?.isSome = true ↔ 0 < s.world.contexts.length := by
  simp [context?, World.get?, home]

theorem length_call (s : Session) (c : Call) :
    (s.call c).1.world.contexts.length = s.world.contexts.length :=
  (perform_keeps (evaluateAt_keeps _) s.world home c).length

theorem length_eval (s : Session) (expression : String) (numbered : Bool) :
    (s.eval expression numbered).1.world.contexts.length = s.world.contexts.length := by
  rw [← s.length_call (.evaluate expression s.strict)]
  unfold eval
  dsimp only
  split <;> rfl

theorem length_evalCut (s : Session) (cut : Text.Fragment) (position : Nat) (numbered : Bool) :
    (s.evalCut cut position numbered).1.world.contexts.length = s.world.contexts.length := by
  have hooked := (callHook_keeps refuseEvaluation_keeps home cut.shown
    (s.world.modify home (fun c => { c with lastToken := cut.shown }))).length
  rw [World.length_modify] at hooked
  unfold evalCut
  dsimp only
  split
  · exact (World.length_modify _ _ _).trans hooked
  · exact (World.length_modify _ _ _).trans hooked

theorem length_finishCut (s : Session) (cut : Text.Fragment) (position : Nat) (numbered : Bool)
    (reply : Reply) : (s.finishCut cut position numbered reply).1.world.contexts.length =
      s.world.contexts.length := by
  unfold finishCut
  split
  · rfl
  · split
    · rfl
    · exact length_evalCut s cut position numbered

theorem length_evalFragment (s : Session) (line : Text.Fragment) (numbered : Bool) :
    (s.evalFragment line numbered).1.world.contexts.length = s.world.contexts.length := by
  rw [evalFragment_eq]
  cases line.whole? with
  | some expression => exact length_eval s expression numbered
  | none => exact (length_finishCut _ _ _ _ _).trans (s.length_call _)

/-- Answer a line that has no blanks around it. Nothing is done about an empty one; one that starts
with a colon is a command, and any other is evaluated and its values are shown with numbers. -/
def respond (s : Session) (line : Text.Fragment) : Session × Output :=
  if line.isEmpty then (s, .empty)
  else if line.startsWithChar ':' then ((s.commandFragment line).1, (s.commandFragment line).2.1)
  else ((s.evalFragment line true).1, (s.evalFragment line true).2.1)

/-- A line that was not cut is carried out or evaluated as it is. -/
theorem respond_ofText (s : Session) (text : String) :
    s.respond (.ofText text) =
      if text = "" then (s, .empty)
      else if Text.startsWithChar ':' text then ((s.command text).1, (s.command text).2.1)
      else ((s.eval text true).1, (s.eval text true).2.1) := by
  have empty : (Text.Fragment.ofText text).isEmpty = decide (text = "") := by
    rw [Text.Fragment.isEmpty_ofText, Bool.eq_iff_iff]
    simp
  unfold respond
  rw [empty]
  simp only [decide_eq_true_eq]
  rfl

/-- Answer lines, one after the other; the outputs are those of the lines. -/
def respondAll (s : Session) : List Text.Fragment → Session × List Output
  | [] => (s, [])
  | line :: rest =>
    let (s', outputs) := (s.respond line).1.respondAll rest
    (s', (s.respond line).2 :: outputs)

/-- A session keeps its context whatever it is asked. -/
theorem isSome_context?_respond {s : Session} (present : s.context?.isSome = true)
    (line : Text.Fragment) : (s.respond line).1.context?.isSome = true := by
  unfold respond
  split
  · exact present
  · split
    · rcases Option.isSome_iff_exists.mp present with ⟨c, here⟩
      rcases (commandFragment_carried here line).kept with ⟨stack, vars, strict, altered⟩
      dsimp only
      rw [altered, context?_isSome_iff]
      exact Nat.lt_of_lt_of_eq ((context?_isSome_iff s).mp present)
        (World.length_put _ _ _).symm
    · rw [context?_isSome_iff, length_evalFragment, ← context?_isSome_iff]
      exact present

end Session

/-! ## Lines at a prompt -/

namespace CommandLine.Prompt

/-- Whether a line that has no blanks around it asks to leave: it is a command, and its first word
says so. -/
def leaves (line : Text.Fragment) : Bool :=
  line.startsWithChar ':' && Command.asksToLeave (Command.fields line.shown)

/-- The lines that are answered, without the blanks around them: all up to the first that asks to
leave, which is answered as well. -/
def answered (lines : List Text.Fragment) : List Text.Fragment :=
  (lines.map .trim).take ((lines.map .trim).findIdx leaves + 1)

/-- The lines that are carried out: those of the answered ones that are not blank. -/
def handled (lines : List Text.Fragment) : List Text.Fragment :=
  (answered lines).filter (!·.isEmpty)

/-- Whether some line asks to leave. -/
def isLeft (lines : List Text.Fragment) : Bool :=
  (lines.map .trim).any leaves

theorem answered_cons (line : Text.Fragment) (rest : List Text.Fragment) :
    answered (line :: rest) = line.trim :: if leaves line.trim then [] else answered rest := by
  unfold answered
  rw [List.map_cons, List.findIdx_cons]
  cases leaves line.trim with
  | true => rfl
  | false => rfl

theorem isLeft_cons (line : Text.Fragment) (rest : List Text.Fragment) :
    isLeft (line :: rest) = (leaves line.trim || isLeft rest) := rfl

theorem not_leaves_of_isEmpty {line : Text.Fragment} (empty : line.isEmpty = true) :
    leaves line = false := by
  unfold Text.Fragment.isEmpty at empty
  simp only [Bool.and_eq_true, List.isEmpty_iff] at empty
  unfold leaves Text.Fragment.startsWithChar Text.startsWithChar
  rw [empty.1.2]
  simp

/-- What is done about a line as it was entered. -/
theorem answer_eq {p : Prompt} (present : p.session.context?.isSome = true)
    (line : Text.Fragment) :
    p.answer line =
      (⟨(p.session.respond line.trim).1,
          if line.trim.isEmpty then p.history else p.history.enter line.trim⟩,
        (p.session.respond line.trim).2, leaves line.trim) := by
  rcases Option.isSome_iff_exists.mp present with ⟨c, here⟩
  unfold answer Session.respond
  dsimp only
  cases empty : line.trim.isEmpty with
  | true =>
      rw [not_leaves_of_isEmpty empty]
      rfl
  | false =>
      simp only [handle, Bool.false_eq_true, if_false]
      cases colon : line.trim.startsWithChar ':' with
      | true =>
          have leave := (Session.commandFragment_carried here line.trim).leave
          simp [leaves, colon, leave]
      | false => simp [leaves, colon]

/-- What a prompt writes if these are its answers: it asks before each of them, and once more if the
lines end without one that asks to leave. -/
def transcript (answers : List Output) (left : Bool) : Output where
  out := String.join (answers.map (promptText ++ ·.out)) ++ if left then "" else promptText
  err := String.join (answers.map (·.err))

theorem transcript_nil_left : transcript [] true = ⟨"", ""⟩ := rfl

theorem transcript_cons (answer : Output) (rest : List Output) (left : Bool) :
    transcript (answer :: rest) left = ⟨promptText, ""⟩ ++ answer ++ transcript rest left := by
  rcases answer with ⟨out, err⟩
  simp [transcript, String.append_assoc]

theorem enterAll_filter_cons (h : History) (line : Text.Fragment) (more : List Text.Fragment) :
    h.enterAll ((line :: more).filter (!·.isEmpty)) =
      History.enterAll (if line.isEmpty then h else h.enter line) (more.filter (!·.isEmpty)) := by
  cases empty : line.isEmpty <;> simp [empty, History.enterAll]

/-- A prompt answers the lines up to the first that asks to leave and puts those that are not blank
into the history. -/
theorem run_eq {p : Prompt} (present : p.session.context?.isSome = true)
    (lines : List Text.Fragment) :
    p.run lines =
      (⟨(p.session.respondAll (answered lines)).1, p.history.enterAll (handled lines)⟩,
        transcript (p.session.respondAll (answered lines)).2 (isLeft lines)) := by
  induction lines generalizing p with
  | nil => rfl
  | cons line rest ih =>
      have later := ih (p := ⟨(p.session.respond line.trim).1,
          if line.trim.isEmpty then p.history else p.history.enter line.trim⟩)
        (Session.isSome_context?_respond present line.trim)
      rw [run_cons, answer_eq present, handled, answered_cons, isLeft_cons, enterAll_filter_cons,
        Session.respondAll, transcript_cons]
      dsimp only
      cases leaves line.trim with
      | true =>
          rw [if_pos rfl, if_pos rfl, Session.respondAll, Bool.true_or, transcript_nil_left,
            Output.append_empty]
          rfl
      | false =>
          rw [if_neg Bool.false_ne_true, if_neg Bool.false_ne_true, later]
          rfl

/-! ## What stands behind a line that asks to leave -/

theorem answered_append {before : List Text.Fragment} (left : isLeft before = true)
    (after : List Text.Fragment) : answered (before ++ after) = answered before := by
  induction before with
  | nil => cases left
  | cons line rest ih =>
      rw [List.cons_append, answered_cons, answered_cons]
      rw [isLeft_cons] at left
      cases here : leaves line.trim with
      | true => rfl
      | false =>
          rw [here, Bool.false_or] at left
          rw [ih left]

theorem isLeft_append (before after : List Text.Fragment) :
    isLeft (before ++ after) = (isLeft before || isLeft after) := by
  rw [isLeft, List.map_append, List.any_append]
  rfl

end CommandLine.Prompt

namespace CommandLine

/-- What a prompt comes to. -/
def promptReport (env : Environment) (s : Session) (lines : List Text.Fragment) : Report where
  code := 0
  output := ⟨s.palette.notice welcome, ""⟩ ++
    Prompt.transcript (s.respondAll (Prompt.answered lines)).2 (Prompt.isLeft lines)
  history :=
    let loaded := (loadHistory env).items
    env.home.map fun _ => History.render
      (.latest (loaded ++ History.withoutRepeats loaded.getLast? (Prompt.handled lines)))

theorem promptReport_congr {env : Environment} {s : Session} {lines lines' : List Text.Fragment}
    (same : lines.map Text.Fragment.trim = lines'.map Text.Fragment.trim) :
    promptReport env s lines = promptReport env s lines' := by
  unfold promptReport Prompt.handled Prompt.answered Prompt.isLeft
  rw [same]

theorem evaluateSource_prompt (env : Environment) {s : Session}
    (present : s.context?.isSome = true) :
    evaluateSource env s .prompt = promptReport env s (Prompt.lines env.input) := by
  have ran := Prompt.run_eq (p := ⟨s, loadHistory env⟩) present (Prompt.lines env.input)
  unfold evaluateSource
  dsimp only
  rw [ran, History.enterAll_eq_latest]
  rfl

/-- A prompt answers the lines that are entered, up to the first that asks to leave; nothing behind
it counts. They are the lines of the text unless one of them is too long to be read at once, and
each that was not cut is carried out or evaluated as it is. -/
theorem prompt_report (env : Environment) {s : Session} (present : s.context?.isSome = true) :
    evaluateSource env s .prompt = promptReport env s (Prompt.lines env.input) ∧
      (∀ before after : String, Prompt.isLeft (Prompt.lines (before ++ "\n")) = true →
        evaluateSource { env with input := before ++ "\n" ++ after } s .prompt =
          evaluateSource { env with input := before ++ "\n" } s .prompt) ∧
      ((∀ l ∈ Text.rawLines env.input.toList, Text.byteLength l < Prompt.bufferSize) →
        evaluateSource env s .prompt =
          promptReport env s ((Text.lines env.input).map Text.Fragment.ofText)) ∧
      ∀ (t : Session) (text : String),
        t.respond (.ofText text) =
          if text = "" then (t, .empty)
          else if Text.startsWithChar ':' text then ((t.command text).1, (t.command text).2.1)
          else ((t.eval text true).1, (t.eval text true).2.1) := by
  have pos : 0 < Prompt.bufferSize := by decide
  have report := evaluateSource_prompt env present
  refine ⟨report, fun before after left => ?_, fun short => ?_, Session.respond_ofText⟩
  · have lines : Prompt.lines (before ++ "\n" ++ after) =
        Prompt.lines (before ++ "\n") ++ Prompt.lines after :=
      Text.piecedLines_append pos before after
    rw [evaluateSource_prompt _ present, evaluateSource_prompt _ present]
    dsimp only
    rw [lines]
    unfold promptReport Prompt.handled
    rw [Prompt.answered_append left, Prompt.isLeft_append, left, Bool.true_or]
    rfl
  · rw [report]
    refine promptReport_congr ?_
    rw [List.map_map]
    exact Text.map_trim_piecedLines pos short

/-- At home in the current directory, with two lines in the history. -/
def promptSurroundings (input : String) : Environment :=
  { surroundings input true ".rpn_history" "1 2\n8\n" with home := some "." }

/-- A session with an empty stack. -/
def promptSession : Session :=
  ⟨⟨[Context.new {}], none, []⟩, false, ⟨false⟩, false⟩

/-- A line that repeats the history, a blank one, one that is refused, and one that asks to leave
before the text ends. -/
theorem prompt_report_left :
    evaluateSource (promptSurroundings "8\n\n  :what\n :q now\n5\n") promptSession .prompt =
      ⟨0, ⟨"rpn, :help for commands\nrpn>   0: 8\nrpn> rpn> rpn> ",
        "error: unknown command :what (try :help)\n"⟩, some "1 2\n8\n:what\n:q now\n"⟩ := by
  rcases prompt_report (promptSurroundings "8\n\n  :what\n :q now\n") (s := promptSession) rfl
    with ⟨report, cut, -⟩
  have left : Prompt.isLeft (Prompt.lines ("8\n\n  :what\n :q now" ++ "\n")) = true := by
    decide +kernel
  refine (cut "8\n\n  :what\n :q now" "5\n" left).trans (report.trans ?_)
  decide +kernel

/-! ## A line that is too long to be read at once -/

/-- Two numbers with so many blanks between them. -/
def spreadPair (n : Nat) : String :=
  paddedOne n ++ "2"

theorem toList_spreadPair (n : Nat) :
    (spreadPair n).toList = (paddedOne n).toList ++ ['2'] := by
  simp [spreadPair]

theorem not_mem_spreadPair (n : Nat) : '\n' ∉ (spreadPair n).toList := by
  rw [toList_spreadPair]
  exact fun inside => (List.mem_append.mp inside).elim (not_mem_paddedOne n) (by decide)

theorem trim_spreadPair (n : Nat) : Text.trim (spreadPair n) = spreadPair n := by
  have first : (spreadPair n).toList.head? = some '1' := by
    rw [toList_spreadPair, toList_paddedOne]
    rfl
  have last : (spreadPair n).toList.getLast? = some '2' := by
    rw [toList_spreadPair, List.getLast?_concat]
  refine Text.trim_of_ends (fun c head => ?_) (fun c back => ?_)
  · rw [first, Option.some.injEq] at head
    rw [← head]
    decide
  · rw [last, Option.some.injEq] at back
    rw [← back]
    decide

theorem splitOnP_spreadPair (n : Nat) :
    (spreadPair n ++ "\n").toList.splitOnP (· == '\n') = [(spreadPair n).toList] ++ [[]] := by
  have apart : ∀ l ∈ [(spreadPair n).toList], '\n' ∉ l := by
    intro l member
    rw [List.mem_singleton.mp member]
    exact not_mem_spreadPair n
  have split := Text.splitOnP_ended apart List.not_mem_nil
  rw [← split]
  simp

theorem lines_spreadPair (n : Nat) : Text.lines (spreadPair n ++ "\n") = [spreadPair n] := by
  have kept : Text.dropReturn (spreadPair n).toList = (spreadPair n).toList := by
    rw [Text.dropReturn, toList_spreadPair, List.reverse_append]
    rfl
  rw [Text.lines, Text.rawLines_of_split (splitOnP_spreadPair n)]
  simp [kept]

theorem map_trim_piecedLines_spreadPair {n : Nat} (pos : 0 < n) :
    (Text.piecedLines (n + 1) (spreadPair n ++ "\n")).map Text.Fragment.trim =
      [.ofText "1", .ofText "2"] := by
  have unreturned : (paddedOne n).toList.getLast? ≠ some '\r' := by
    intro ended
    have member := List.mem_of_getLast? ended
    rw [toList_paddedOne] at member
    simp at member
  have short : Text.byteLength ['2'] < Text.byteLength (paddedOne n).toList := by
    rw [byteLength_paddedOne]
    exact Nat.succ_lt_succ pos
  have pieces := Text.cutLine_of_full unreturned short
  rw [byteLength_paddedOne] at pieces
  rw [Text.piecedLines_of_split (splitOnP_spreadPair n), List.flatMap_singleton,
    toList_spreadPair, pieces, Text.filter_cutLine_nil n.succ_pos]
  simp only [List.append_nil, List.map_cons, List.map_nil, Text.Fragment.dropReturn_ofText,
    Text.Fragment.trim_ofText, Text.trim_dropReturn]
  rw [String.ofList_toList, trim_paddedOne]
  rfl

theorem promptReport_promptSurroundings (input : String) (s : Session)
    (lines : List Text.Fragment) : promptReport (promptSurroundings input) s lines =
      promptReport (promptSurroundings "") s lines := rfl

theorem history_promptReport_spreadPair (input : String) (n : Nat) :
    (promptReport (promptSurroundings input) promptSession [.ofText (spreadPair n)]).history =
      some ("1 2\n8\n" ++ spreadPair n ++ "\n") := by
  have handled : Prompt.handled [.ofText (spreadPair n)] = [.ofText (spreadPair n)] := by
    have full : (Text.Fragment.ofText (spreadPair n)).isEmpty = false := by
      rw [Text.Fragment.isEmpty_ofText, toList_spreadPair, toList_paddedOne]
      rfl
    rw [Prompt.handled, Prompt.answered_cons, Text.Fragment.trim_ofText, trim_spreadPair]
    simp [full, Prompt.answered]
  have loaded : (loadHistory (promptSurroundings input)).items = [.ofText "1 2", .ofText "8"] := rfl
  have new : some (Text.Fragment.ofText "8") ≠ some (Text.Fragment.ofText (spreadPair n)) := by
    intro same
    have texts := congrArg (fun f => f.text.toList) (Option.some.inj same)
    simp [Text.Fragment.ofText, toList_spreadPair, toList_paddedOne] at texts
  have entered : History.withoutRepeats (some (.ofText "8")) [.ofText (spreadPair n)] =
      [.ofText (spreadPair n)] := by
    rw [History.withoutRepeats, if_neg new]
    rfl
  have written : (History.latest [.ofText "1 2", .ofText "8", .ofText (spreadPair n)]).render =
      "1 2\n8\n" ++ spreadPair n ++ "\n" := by
    rw [History.render, History.items_latest, ← String.toList_inj]
    simp [History.limit]
  unfold promptReport
  simp only [handled, loaded]
  rw [List.getLast?_cons_cons, List.getLast?_singleton, entered]
  exact congrArg some written

/-- A line of one byte more than is read at a time is taken for two lines. -/
theorem prompt_cuts_long_line :
    let line := spreadPair 4095
    let env := promptSurroundings (line ++ "\n")
    Text.lines env.input = [line] ∧
      evaluateSource env promptSession .prompt =
        ⟨0, ⟨"rpn, :help for commands\nrpn>   0: 1\nrpn>   0: 2\n  1: 1\nrpn> ", ""⟩,
          some "1 2\n8\n1\n2\n"⟩ ∧
      evaluateSource env promptSession .prompt ≠
        promptReport env promptSession ((Text.lines env.input).map Text.Fragment.ofText) := by
  intro line env
  have pieces : (Prompt.lines env.input).map Text.Fragment.trim =
      [Text.Fragment.ofText "1", Text.Fragment.ofText "2"].map Text.Fragment.trim :=
    map_trim_piecedLines_spreadPair (n := 4095) (by decide)
  have read : evaluateSource env promptSession .prompt =
      ⟨0, ⟨"rpn, :help for commands\nrpn>   0: 1\nrpn>   0: 2\n  1: 1\nrpn> ", ""⟩,
        some "1 2\n8\n1\n2\n"⟩ := by
    rw [evaluateSource_prompt env rfl, promptReport_congr pieces, promptReport_promptSurroundings]
    decide +kernel
  refine ⟨lines_spreadPair 4095, read, fun same => ?_⟩
  have lines : Text.lines env.input = [line] := lines_spreadPair 4095
  rw [lines, read] at same
  have histories := congrArg Report.history same
  rw [List.map_singleton, history_promptReport_spreadPair] at histories
  have chars := congrArg String.toList (Option.some.inj histories)
  rw [String.toList_append, String.toList_append, toList_spreadPair, toList_paddedOne,
    List.replicate_succ] at chars
  cases chars

end CommandLine
end ReversePolish
