import ReversePolish.Context

/-!
Evaluation in a world of contexts.

An evaluation handles its tokens from left to right: a literal is pushed, an operator is called once
the stack holds enough values, a variable is looked up, and anything else is unknown. Before each
token the hook of the context is called, or else the shared hook. Operators and hooks may run
scripts, and scripts may evaluate again, on any context of the world.

A context that is evaluating refuses to evaluate, so nested evaluations are on distinct contexts,
and there are at most as many as contexts. Each function here takes the evaluation for scripts as an
argument; `evaluateAt n` admits `n` evaluations inside each other, and `World.evaluate` one for each
context, which is never too few.
-/

namespace ReversePolish

/-- What callbacks leave behind besides their effects. -/
inductive Event where
  /-- A step of a script was performed. -/
  | performed (call : Call) (reply : Reply)
  /-- A hook with a label saw a token, on a stack of this size. -/
  | observed (label token : String) (depth : Nat)
  /-- A trace of a token, on a stack of this size. -/
  | traced (token : String) (depth : Nat)
  /-- A builtin was called on a stack that is too short for it. -/
  | underflow (b : Builtin)

/-- Contexts that share one hook, and the journal of their callbacks. -/
structure World where
  contexts : List Context
  /-- The hook of every context without one of its own. -/
  sharedHook : Option Hook
  /-- What callbacks noted, last note first. -/
  journal : List Event

namespace World

/-- A world of new contexts. -/
def new (options : List ContextOptions) : World :=
  ⟨options.map Context.new, none, []⟩

def get? (w : World) (id : Nat) : Option Context :=
  w.contexts[id]?

/-- Replace a context. -/
def put (w : World) (id : Nat) (c : Context) : World :=
  { w with contexts := w.contexts.set id c }

/-- Change a context. -/
def modify (w : World) (id : Nat) (f : Context → Context) : World :=
  match w.get? id with
  | some c => w.put id (f c)
  | none => w

/-- Add a note to the journal. -/
def note (w : World) (e : Event) : World :=
  { w with journal := e :: w.journal }

/-- The notes in the order in which they were made, and the world with an empty journal. -/
def takeJournal (w : World) : List Event × World :=
  (w.journal.reverse, { w with journal := [] })

end World

/-- An evaluation of an expression on a context, strict or not. -/
abbrev Evaluator := World → Nat → String → Bool → World × Reply

/-- Perform a call on a context. -/
def perform (evaluate : Evaluator) (w : World) (id : Nat) (call : Call) : World × Reply :=
  match w.get? id with
  | none => (w, .noContext)
  | some c =>
    match call with
    | .evaluate input strict => evaluate w id input strict
    | .hook true hook => ({ w with sharedHook := hook }, .ok)
    | call =>
      let (c', reply) := c.perform call
      (w.put id c', reply)

/-- Run a script on behalf of a callback on the context `self`, noting each step after it. -/
def runScript (evaluate : Evaluator) (self : Nat) (body : List Step) (w : World) : World :=
  body.foldl
    (fun w step =>
      match step with
      | .on target call =>
        let (w', reply) := perform evaluate w (target.getD self) call
        w'.note (.performed call reply))
    w

/-- Call the hook that watches a context, if there is one, before a token is handled. -/
def callHook (evaluate : Evaluator) (id : Nat) (token : String) (w : World) : World :=
  match w.get? id with
  | none => w
  | some c =>
    match c.hook <|> w.sharedHook with
    | none => w
    | some .trace => w.note (.traced token c.stack.length)
    | some (.script label body) =>
      runScript evaluate id body (w.note (.observed label token c.stack.length))

/-- Call an operator on a context. -/
def callOperator (evaluate : Evaluator) (id : Nat) (c : Context) (op : Operator) (w : World) :
    World × Outcome :=
  match op with
  | .builtin b =>
    match b.run? c.settings c.stack with
    | some effect => (w.put id { c with stack := effect.stack }, effect.outcome)
    | none => (w.note (.underflow b), .fail .invalidArgument)
  | .custom _ _ callback => (runScript evaluate id callback.body w, callback.outcome)

/-- Handle one token. -/
def handleToken (evaluate : Evaluator) (id : Nat) (strict : Bool) (token : String) (w : World) :
    World × Outcome :=
  match w.get? id with
  | none => (w, .fail .unknownToken)
  | some c =>
    if Token.isLiteral token then (w.put id (c.push (Token.literalValue token)), .proceed)
    else
      match c.operators.lookup? token with
      | some op =>
        if c.stack.length < op.arity then (w, .fail .argumentCount)
        else callOperator evaluate id c op w
      | none =>
        match Token.variableName? token with
        | none => (w, .fail .unknownToken)
        | some name =>
          match c.vars.get? name with
          | some v => (w.put id (c.push v), .proceed)
          | none =>
            if strict then (w, .fail .unknownToken) else (w.put id (c.push 0), .proceed)

/-- A failure without a reason counts as an invalid argument. -/
def failureReason (reason : Status) : Status :=
  if reason = .ok then .invalidArgument else reason

/-- Handle tokens up to the first that halts or fails; `position` is the place of the first of
them. -/
def runTokens (evaluate : Evaluator) (id : Nat) (strict : Bool) :
    (position : Nat) → List String → World → World × Reply
  | _, [], w => (w, .ok)
  | position, token :: rest, w =>
    let w := w.modify id (fun c => { c with lastToken := token })
    let w := callHook evaluate id token w
    match handleToken evaluate id strict token w with
    | (w, .proceed) => runTokens evaluate id strict (position + 1) rest w
    | (w, .halt) => (w.modify id (fun c => { c with halted := true }), .ok)
    | (w, .fail reason) =>
      let reason := failureReason reason
      (w.modify id (fun c => { c with status := reason }), .failed ⟨reason, token, position⟩)

/-- A context at the start of an evaluation. -/
def Context.start (c : Context) : Context :=
  { c with status := .ok, halted := false, lastToken := "", busy := true }

/-- A context at the end of an evaluation. -/
def Context.release (c : Context) : Context :=
  { c with busy := false }

/-- Evaluate an expression on a context that is neither closed nor busy. -/
def evaluateWith (evaluate : Evaluator) : Evaluator := fun w id input strict =>
  match w.get? id with
  | none => (w, .noContext)
  | some c =>
    if c.closed then (w, .closed)
    else if c.busy then (w, .busy)
    else
      let (w, reply) := runTokens evaluate id strict 0 (Token.tokenize input) (w.put id c.start)
      (w.modify id Context.release, reply)

/-- The answer where no further evaluation is admitted. -/
def refuseEvaluation : Evaluator := fun w id _ _ =>
  match w.get? id with
  | none => (w, .noContext)
  | some c => if c.closed then (w, .closed) else (w, .busy)

/-- Evaluate with at most `n` evaluations inside each other. -/
def evaluateAt : Nat → Evaluator
  | 0 => refuseEvaluation
  | n + 1 => evaluateWith (evaluateAt n)

namespace World

/-- Evaluate an expression on a context. -/
def evaluate : Evaluator := fun w id input strict =>
  evaluateAt w.contexts.length w id input strict

/-- Perform a call on a context. -/
def call (w : World) (id : Nat) (c : Call) : World × Reply :=
  perform (evaluateAt w.contexts.length) w id c

end World

end ReversePolish
