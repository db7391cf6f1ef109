import ReversePolish.Proofs.Session.Transcript
import ReversePolish.Session.Fragment

/-!
Sessions of which one traces and the other does not.

Whatever is asked of both, they answer the same, and the one that traces writes a line for each token
that an evaluation looks at, in front of what both write about it. This holds of evaluations, of
lines that were cut inside a character, and of commands, which look at no token.
-/

namespace ReversePolish

theorem Palette.traceLines_append (p : Palette) (xs ys : List (String × Nat)) :
    p.traceLines (xs ++ ys) = p.traceLines xs ++ p.traceLines ys := by
  simp [traceLines]

theorem Evaluation.err_output_true (e : Evaluation) (p : Palette) (numbered : Bool) :
    (e.output p true numbered).err = p.traceLines e.looked ++ (e.output p false numbered).err := by
  simp [output]

theorem World.modify_note (w : World) (e : Event) (id : Nat) (f : Context → Context) :
    (w.note e).modify id f = (w.modify id f).note e := by
  have same : (w.note e).get? id = w.get? id := rfl
  unfold modify
  rw [same]
  cases w.get? id <;> rfl

theorem World.stackOf_modify {w : World} {id : Nat} {f : Context → Context}
    (kept : ∀ c, (f c).stack = c.stack) : (w.modify id f).stackOf id = w.stackOf id := by
  unfold World.stackOf
  cases present : w.get? id with
  | none =>
      unfold World.modify
      rw [present]
      dsimp only
      rw [present]
  | some c =>
      rw [World.get?_modify_self present]
      exact kept c

/-- A change of a context that concerns neither its hook nor its operators nor whether it is idle. -/
structure Context.Plain (f : Context → Context) : Prop where
  hooks : ∀ c hook, f { c with hook := hook } = { f c with hook := hook }
  operators : ∀ c, (f c).operators = c.operators
  closed : ∀ c, (f c).closed = c.closed
  busy : ∀ c, (f c).busy = c.busy

theorem Context.plain_look (token : String) : Context.Plain (Context.look token) :=
  ⟨fun _ _ => rfl, fun _ => rfl, fun _ => rfl, fun _ => rfl⟩

namespace World.Follows

variable {traced traced' : Bool} {w v : World} (follows : w.Follows traced traced' v)
include follows

/-- What is in the journals does not matter, as long as nothing is left to show. -/
theorem journals (notes notes' : List Event)
    (quiet : World.seen { w with journal := notes } = []) :
    World.Follows traced traced' { w with journal := notes } { v with journal := notes' } :=
  ⟨follows.mirror.journals notes notes', follows.single, follows.idle, quiet⟩

theorem settle_settle (input : String) (strict : Bool) :
    (w.settle input strict).Follows traced traced' (v.settle input strict) := by
  have settled := (follows.settle input strict).2
  exact settled.journals (w.settle input strict).journal (v.settle input strict).journal
    settled.quiet

theorem modify {f : Context → Context} (plain : Context.Plain f) :
    (w.modify Session.home f).Follows traced traced' (v.modify Session.home f) where
  mirror := follows.mirror.modify plain.hooks plain.operators plain.closed
  single := (World.length_modify w _ f).trans follows.single
  idle := by
    rcases World.isIdle_iff.mp follows.idle with ⟨c, present, isOpen, free⟩
    exact World.isIdle_iff.mpr ⟨f c, World.get?_modify_self present f,
      (plain.closed c).trans isOpen, (plain.busy c).trans free⟩
  quiet := (World.seen_of_journal (World.journal_modify w _ f)).trans follows.quiet

theorem callHook_eq (token : String) :
    callHook refuseEvaluation Session.home token w =
        (if traced then w.note (.traced token (v.stackOf Session.home).length) else w) ∧
      callHook refuseEvaluation Session.home token v =
        (if traced' then v.note (.traced token (v.stackOf Session.home).length) else v) := by
  rcases World.isIdle_iff.mp follows.idle with ⟨c, present, isOpen, -⟩
  rcases follows.mirror.get? present with ⟨hook, present', twin⟩
  rcases twin.watched isOpen with ⟨watcher, watcher'⟩
  have stack : v.stackOf Session.home = c.stack := by
    rw [World.stackOf, present']
    rfl
  unfold callHook
  rw [present, present', stack]
  dsimp only
  rw [watcher, watcher']
  constructor
  · cases traced <;> rfl
  · cases traced' <;> rfl

end World.Follows

/-! ## A token that was cut -/

/-- Look at a token that is not evaluated, and change the context afterwards. -/
def World.glimpse (w : World) (token : String) (f : Context → Context) : World :=
  (callHook refuseEvaluation Session.home token
    (w.modify Session.home (Context.look token))).modify Session.home f

/-- What a world comes to that is looked at, by what its hook does. -/
theorem World.glimpse_eq {w : World} {token : String} {traced : Bool} {depth : Nat}
    (hooked : callHook refuseEvaluation Session.home token
        (w.modify Session.home (Context.look token)) =
      if traced then (w.modify Session.home (Context.look token)).note (.traced token depth)
      else w.modify Session.home (Context.look token)) (f : Context → Context) :
    ∃ notes, w.glimpse token f =
        { (w.modify Session.home (Context.look token)).modify Session.home f with
          journal := notes } ∧
      (w.glimpse token f).seen =
        w.seen ++ (if traced then [(token, depth)] else []).map (fun seen => (none, seen)) := by
  have journal : ((w.modify Session.home (Context.look token)).modify Session.home f).seen =
      w.seen := by
    rw [World.seen_of_journal (World.journal_modify _ _ f),
      World.seen_of_journal (World.journal_modify w _ _)]
  unfold World.glimpse
  rw [hooked]
  cases traced with
  | false => exact ⟨_, rfl, journal.trans (List.append_nil _).symm⟩
  | true =>
      rw [if_pos rfl, World.modify_note, World.seen_note, journal]
      exact ⟨_, rfl, rfl⟩

/-- The token is traced, if any is, on the stack as it was. -/
theorem World.Follows.glimpse {traced traced' : Bool} {w v : World}
    (follows : w.Follows traced traced' v) (token : String) {f : Context → Context}
    (plain : Context.Plain f) :
    (w.glimpse token f).takeTraces.1 =
        (if traced then [(token, (v.stackOf Session.home).length)] else []) ∧
      (w.glimpse token f).takeTraces.2.Follows traced traced' (v.glimpse token f).takeTraces.2 := by
  have looked := follows.modify (Context.plain_look token)
  have stack : (v.modify Session.home (Context.look token)).stackOf Session.home =
      v.stackOf Session.home :=
    World.stackOf_modify (fun _ => rfl)
  rcases looked.callHook_eq token with ⟨hooked, hooked'⟩
  rw [stack] at hooked hooked'
  rcases World.glimpse_eq hooked f with ⟨notes, glimpsed, told⟩
  rcases World.glimpse_eq hooked' f with ⟨notes', glimpsed', -⟩
  rw [follows.quiet, List.nil_append] at told
  rcases World.takeTraces_of_seen told with ⟨traces, quiet⟩
  refine ⟨traces, ?_⟩
  rw [glimpsed] at quiet ⊢
  rw [glimpsed']
  exact (looked.modify plain).journals _ _ quiet

/-! ## Two sessions -/

namespace Session

/-- A session that traces and one that does not, and that are the same otherwise. -/
structure Shadows (s t : Session) : Prop where
  world : s.world.Follows true false t.world
  plain : t.world.Follows false false t.world
  strict : s.strict = t.strict
  palette : s.palette = t.palette
  failed : s.failed = t.failed

/-- Answers of two such sessions: the same but for the traces of the tokens that were looked at. -/
structure Answers (p : Palette) (looked : List (String × Nat))
    (one other : Session × Output × Bool) : Prop where
  sessions : one.1.Shadows other.1
  out : one.2.1.out = other.2.1.out
  err : one.2.1.err = p.traceLines looked ++ other.2.1.err
  flag : one.2.2 = other.2.2

/-- What is left to do for a line with a token that was cut, after the reply to the text before
it. -/
def finishCut (s : Session) (cut : Text.Fragment) (position : Nat) (numbered : Bool)
    (reply : Reply) : Session × Output × Bool :=
  match reply.error? with
  | some message => s.showFault message
  | none =>
    if s.context?.any Context.halted then (s, ⟨s.palette.stack numbered s.stack, ""⟩, true)
    else s.evalCut cut position numbered

theorem evalFragment_eq (s : Session) (line : Text.Fragment) (numbered : Bool) :
    s.evalFragment line numbered =
      match line.whole? with
      | some expression => s.eval expression numbered
      | none =>
        let (start, cut) := line.firstCut
        let (s₁, traces, reply) := s.call (.evaluate start s.strict)
        let (s₂, output, ok) := s₁.finishCut cut (Token.tokenize start).length numbered reply
        (s₂, traces ++ output, ok) := rfl

/-- More tokens have been looked at before. -/
theorem Answers.prepend {p : Palette} {before looked : List (String × Nat)}
    {one other : Session × Output × Bool} (answers : Answers p looked one other) :
    Answers p (before ++ looked) (one.1, ⟨"", p.traceLines before⟩ ++ one.2.1, one.2.2)
      (other.1, ⟨"", ""⟩ ++ other.2.1, other.2.2) where
  sessions := answers.sessions
  out := congrArg ("" ++ ·) answers.out
  err := by
    rw [Palette.traceLines_append, Output.empty_append, String.append_assoc, ← answers.err]
    rfl
  flag := answers.flag

/-- Answers without an evaluation. -/
theorem Answers.silent {p : Palette} {s t : Session} (shadows : s.Shadows t) (output : Output)
    (flag : Bool) : Answers p [] (s, output, flag) (t, output, flag) :=
  ⟨shadows, rfl, String.empty_append.symm, rfl⟩

/-- The tokens that the evaluation of a line looks at, each with the size of the stack. One that was
cut is looked at if those before it neither fail nor halt. -/
def lookedAt (s : Session) (line : Text.Fragment) : List (String × Nat) :=
  match line.whole? with
  | some x => s.world.looked home x s.strict
  | none =>
    let (start, cut) := line.firstCut
    let (w, reply) := s.world.evaluate home start s.strict
    let stopped := reply.error?.isSome || (w.get? home).any Context.halted
    s.world.looked home start s.strict ++
      if stopped then [] else [(cut.shown, (w.stackOf home).length)]

section Cut

variable {s : Session} {cut : Text.Fragment} {position : Nat} {numbered : Bool}

/-- A variable of a name that was cut counts as zero. -/
theorem evalCut_push (unset : (cut.startsWithChar Token.sigil && !s.strict) = true) :
    s.evalCut cut position numbered =
      let w := s.world.glimpse cut.shown (fun c => c.push 0)
      ({ s with world := w.takeTraces.2 },
        ⟨s.palette.stack numbered (w.stackOf home), s.palette.traceLines w.takeTraces.1⟩,
        true) := by
  unfold evalCut
  rw [unset, if_pos rfl]
  exact Prod.ext rfl (Prod.ext (Output.err_append_out _ _) rfl)

/-- Any other token that was cut is unknown. -/
theorem evalCut_fail (unknown : (cut.startsWithChar Token.sigil && !s.strict) = false) :
    s.evalCut cut position numbered =
      let w := s.world.glimpse cut.shown (fun c => { c with status := .unknownToken })
      ({ s with world := w.takeTraces.2, failed := true },
        ⟨"", s.palette.traceLines w.takeTraces.1 ++
          s.palette.failure (Status.unknownToken.messageAt position cut.quote)⟩,
        false) := by
  unfold evalCut
  rw [unknown, if_neg nofun]
  exact Prod.ext rfl (Prod.ext (Output.err_append_err _ _) rfl)

end Cut

variable {s t : Session} (shadows : s.Shadows t)
include shadows

theorem Shadows.settle (x : String) :
    Shadows { s with world := s.world.settle x s.strict }
      { t with world := t.world.settle x t.strict } where
  world := by
    rw [shadows.strict]
    exact shadows.world.settle_settle x t.strict
  plain := shadows.plain.settle_settle x t.strict
  strict := shadows.strict
  palette := shadows.palette
  failed := shadows.failed

theorem Shadows.fail : Shadows { s with failed := true } { t with failed := true } :=
  ⟨shadows.world, shadows.plain, shadows.strict, shadows.palette, rfl⟩

theorem eval_answers (x : String) (numbered : Bool) :
    Answers t.palette (t.world.looked home x t.strict) (s.eval x numbered) (t.eval x numbered) := by
  have settled := shadows.settle x
  rw [eval_of_follows shadows.world, eval_of_follows shadows.plain, shadows.strict,
    shadows.palette]
  refine ⟨⟨?_, settled.plain, rfl, rfl, ?_⟩, rfl, ?_, rfl⟩
  · exact shadows.strict ▸ settled.world
  · dsimp only
    rw [shadows.failed]
  · exact Evaluation.err_output_true _ t.palette numbered

/-- Both look at a token in between. -/
theorem Shadows.glimpse (token : String) {f : Context → Context}
    (plain : Context.Plain f) :
    (s.world.glimpse token f).takeTraces.1 = [(token, (t.world.stackOf home).length)] ∧
      (t.world.glimpse token f).takeTraces.1 = [] ∧
      Shadows { s with world := (s.world.glimpse token f).takeTraces.2 }
        { t with world := (t.world.glimpse token f).takeTraces.2 } := by
  rcases shadows.world.glimpse token plain with ⟨traces, world⟩
  rcases shadows.plain.glimpse token plain with ⟨none, world'⟩
  exact ⟨traces, none, world, world', shadows.strict, shadows.palette, shadows.failed⟩

theorem evalCut_answers (cut : Text.Fragment) (position : Nat) (numbered : Bool) :
    Answers t.palette [(cut.shown, (t.world.stackOf home).length)] (s.evalCut cut position numbered)
      (t.evalCut cut position numbered) := by
  cases sigil : cut.startsWithChar Token.sigil && !t.strict with
  | true =>
      have plain : Context.Plain (fun c => c.push 0) :=
        ⟨fun _ _ => rfl, fun _ => rfl, fun _ => rfl, fun _ => rfl⟩
      rcases shadows.glimpse cut.shown plain with ⟨traces, none, sessions⟩
      have stack : World.stackOf _ home = World.stackOf _ home :=
        sessions.world.mirror.stackOf.symm
      have sigil' : (cut.startsWithChar Token.sigil && !s.strict) = true := by
        rw [shadows.strict, sigil]
      rw [evalCut_push sigil, evalCut_push sigil']
      dsimp only
      rw [traces, none]
      refine ⟨sessions, ?_, ?_, rfl⟩
      · dsimp only
        rw [shadows.palette]
        exact congrArg _ stack
      · simp [shadows.palette, Palette.traceLines]
  | false =>
      have plain : Context.Plain (fun c => { c with status := .unknownToken }) :=
        ⟨fun _ _ => rfl, fun _ => rfl, fun _ => rfl, fun _ => rfl⟩
      rcases shadows.glimpse cut.shown plain with ⟨traces, none, sessions⟩
      have sigil' : (cut.startsWithChar Token.sigil && !s.strict) = false := by
        rw [shadows.strict, sigil]
      rw [evalCut_fail sigil, evalCut_fail sigil']
      dsimp only
      rw [traces, none]
      refine ⟨sessions.fail, rfl, ?_, rfl⟩
      simp [shadows.palette, Palette.traceLines]

/-- Both fail. -/
theorem showFault_answers (message : String) :
    Answers t.palette [] (s.showFault message) (t.showFault message) := by
  unfold showFault
  refine ⟨shadows.fail, rfl, ?_, rfl⟩
  rw [shadows.palette]
  exact String.empty_append.symm

theorem call_evaluate_shadow (x : String) :
    s.call (.evaluate x s.strict) =
      ({ s with world := s.world.settle x s.strict },
        ⟨"", t.palette.traceLines (t.world.looked home x t.strict)⟩,
        (t.world.evaluate home x t.strict).2) := by
  rw [call_evaluate shadows.world]
  refine Prod.ext rfl (Prod.ext ?_ ?_)
  · rw [shadows.palette, shadows.strict]
    rfl
  · rw [shadows.strict]

theorem finishCut_answers (cut : Text.Fragment) (position : Nat) (numbered : Bool)
    (reply : Reply) :
    Answers t.palette
      (if reply.error?.isSome || t.context?.any Context.halted then []
        else [(cut.shown, (t.world.stackOf home).length)])
      (s.finishCut cut position numbered reply) (t.finishCut cut position numbered reply) := by
  have halted : s.context?.any Context.halted = t.context?.any Context.halted :=
    (shadows.world.mirror.any_get? (fun _ _ => rfl)).symm
  have stack : s.stack = t.stack := shadows.world.mirror.stackOf.symm
  unfold finishCut
  rw [halted]
  cases reply.error? with
  | some message =>
      rw [Option.isSome_some, Bool.true_or, if_pos rfl]
      exact showFault_answers shadows message
  | none =>
      rw [Option.isSome_none, Bool.false_or]
      dsimp only
      split
      · refine ⟨shadows, ?_, String.empty_append.symm, rfl⟩
        dsimp only
        rw [shadows.palette, stack]
      · exact evalCut_answers shadows cut position numbered

/-- Both evaluate a line. -/
theorem evalFragment_answers (line : Text.Fragment) (numbered : Bool) :
    Answers t.palette (t.lookedAt line) (s.evalFragment line numbered)
      (t.evalFragment line numbered) := by
  rw [evalFragment_eq, evalFragment_eq]
  unfold lookedAt
  cases line.whole? with
  | some x => exact eval_answers shadows x numbered
  | none =>
      rcases line.firstCut with ⟨start, cut⟩
      dsimp only
      rw [call_evaluate_shadow shadows, call_evaluate shadows.plain]
      exact (finishCut_answers (shadows.settle start) cut _ numbered _).prepend

/-! ## Commands -/

theorem Shadows.update {f : Context → Context} (plain : Context.Plain f) :
    Shadows (s.update f) (t.update f) :=
  ⟨shadows.world.modify plain, shadows.plain.modify plain, shadows.strict, shadows.palette,
    shadows.failed⟩

/-- A command is carried out by both, with the same text, or by neither, for the same reason. -/
theorem runOn_shadows (c : Context) (hook : Option Hook) (cmd : Command) :
    (∃ e, s.runOn c cmd = .error e ∧ t.runOn { c with hook := hook } cmd = .error e) ∨
      ∃ s₁ t₁ shown, s.runOn c cmd = .ok (s₁, shown) ∧
        t.runOn { c with hook := hook } cmd = .ok (t₁, shown) ∧ s₁.Shadows t₁ := by
  cases cmd with
  | nothing => exact .inr ⟨s, t, _, rfl, rfl, shadows⟩
  | quit => exact .inr ⟨s, t, _, rfl, rfl, shadows⟩
  | help => exact .inr ⟨s, t, _, rfl, rfl, shadows⟩
  | explain name =>
      unfold runOn
      dsimp only
      cases c.operators.lookup? name with
      | some op => exact .inr ⟨s, t, _, rfl, by rw [shadows.palette], shadows⟩
      | none => exact .inl ⟨_, rfl, rfl⟩
  | stack => exact .inr ⟨s, t, _, rfl, by rw [shadows.palette]; rfl, shadows⟩
  | clear =>
      exact .inr ⟨_, _, _, rfl, rfl,
        shadows.update ⟨fun _ _ => rfl, fun _ => rfl, fun _ => rfl, fun _ => rfl⟩⟩
  | vars => exact .inr ⟨s, t, _, rfl, by rw [shadows.palette]; rfl, shadows⟩
  | operators => exact .inr ⟨s, t, _, rfl, rfl, shadows⟩
  | set name v =>
      exact .inr ⟨_, _, _, rfl, rfl,
        shadows.update ⟨fun _ _ => rfl, fun _ => rfl, fun _ => rfl, fun _ => rfl⟩⟩
  | delete written =>
      unfold runOn
      dsimp only
      cases c.vars.contains (Text.dropLeading Token.sigil written) with
      | true =>
          exact .inr ⟨_, _, _, rfl, rfl,
            shadows.update ⟨fun _ _ => rfl, fun _ => rfl, fun _ => rfl, fun _ => rfl⟩⟩
      | false => exact .inl ⟨_, rfl, rfl⟩
  | strict on =>
      exact .inr ⟨_, { t with strict := on }, _, rfl, by rw [shadows.palette]; rfl,
        shadows.world, shadows.plain, rfl, shadows.palette, shadows.failed⟩

/-- Both carry out a command line. -/
theorem command_answers (line : String) :
    Answers t.palette [] (s.command line) (t.command line) := by
  rcases World.isIdle_iff.mp shadows.world.idle with ⟨c, present, -⟩
  rcases shadows.world.mirror.get? present with ⟨hook, present', -⟩
  have failed (e : CommandError) :
      Answers t.palette [] (s, ⟨"", s.palette.failure e.message⟩, false)
        (t, ⟨"", t.palette.failure e.message⟩, false) := by
    rw [shadows.palette]
    exact .silent shadows _ _
  unfold command
  rw [show s.context? = some c from present, show t.context? = _ from present']
  cases Command.parse line with
  | error e => exact failed e
  | ok cmd =>
      rcases runOn_shadows shadows c hook cmd with
        ⟨e, ran, ran'⟩ | ⟨s₁, t₁, shown, ran, ran', shadows₁⟩
      · dsimp only
        rw [ran, ran']
        exact failed e
      · dsimp only
        rw [ran, ran']
        exact .silent shadows₁ _ _

theorem commandFragment_answers (line : Text.Fragment) :
    Answers t.palette [] (s.commandFragment line) (t.commandFragment line) := by
  unfold commandFragment
  cases line.whole? with
  | some text => exact command_answers shadows text
  | none =>
      dsimp only
      cases cutMessage? line.firstCut.2 (Command.fields line.firstCut.1) with
      | none => exact command_answers shadows line.shown
      | some message =>
          dsimp only
          rw [shadows.palette]
          exact .silent shadows _ _

end Session

end ReversePolish
