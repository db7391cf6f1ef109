import ReversePolish.Operator.Registry
import ReversePolish.Token
import ReversePolish.Variables

/-!
Contexts: a stack, operators and variables, and what the last evaluation came to.

The calls that concern a single context and do not evaluate are defined here. A context is *busy*
while it evaluates, and stays so for ever once it is closed.
-/

namespace ReversePolish

/-- The state of one calculator. -/
structure Context where
  /-- The values, top first. -/
  stack : List Value
  operators : OperatorTable
  vars : Variables
  settings : Settings
  hook : Option Hook
  /-- How the last evaluation failed, if it did. -/
  status : Status
  /-- Whether the last evaluation was stopped by an operator, successfully. -/
  halted : Bool
  /-- The last token that the last evaluation looked at. -/
  lastToken : String
  busy : Bool
  closed : Bool

/-- What a context is built with. -/
structure ContextOptions where
  builtins : Bool := true
  advanced : Bool := true
  elementary : Elementary := .standard
  policy : Policy := .shadow
  /-- The largest count for `index`; only a positive one is taken. -/
  maxIndex : Int := 0
  hook : Option Hook := none

/-- What a call answers. -/
inductive Reply where
  | ok
  /-- An evaluation stopped at a failing token. -/
  | failed (fault : Fault)
  /-- The context is already evaluating. -/
  | busy
  | closed
  | stackEmpty
  | outOfRange
  | refused (error : RegisterError)
  | value (v : Value)
  | variable (v : Option Value)
  | flag (b : Bool)
  | count (n : Nat)
  | names (names : List String)
  | operator (op : Option Operator)
  /-- There is no such context. -/
  | noContext

namespace Reply

/-- The words for an answer that is a failure. -/
def error? : Reply → Option String
  | .failed fault => some fault.message
  | .busy => some "context is already evaluating"
  | .closed => some "context is closed"
  | .stackEmpty => some "stack is empty"
  | .outOfRange => some "stack index out of range"
  | .refused error => some error.message
  | .noContext => some "no such context"
  | _ => none

end Reply

namespace Context

/-- The largest count that `index` accepts unless another is chosen. -/
def defaultMaxIndex : Nat := 255

/-- The operators that a context starts with. -/
def startingOperators (o : ContextOptions) : OperatorTable :=
  (Registry.empty o.policy).insertAll
    (if o.builtins then (Builtin.library o.advanced).map .builtin else [])

/-- A new context. -/
def new (o : ContextOptions) : Context where
  stack := []
  operators := startingOperators o
  vars := .empty
  settings :=
    { elementary := o.elementary
      maxIndex := if 0 < o.maxIndex then o.maxIndex.toNat else defaultMaxIndex }
  hook := o.hook
  status := .ok
  halted := false
  lastToken := ""
  busy := false
  closed := false

def push (c : Context) (v : Value) : Context :=
  { c with stack := v :: c.stack }

/-- The value `i` places below the top. -/
def peek? (c : Context) (i : Int) : Option Value :=
  if i < 0 then none else c.stack[i.toNat]?

/-- Give a variable a value. -/
def setVariable (c : Context) (name : String) (v : Value) : Context :=
  { c with vars := c.vars.set name v }

/-- Close a context: it loses its values, operators, variables and hook, and what it remembers of
its last evaluation stays. -/
def close (c : Context) : Context × Reply :=
  if c.closed then (c, .ok)
  else if c.busy then (c, .busy)
  else
    ({ c with
        stack := []
        operators := c.operators.clear
        vars := .empty
        hook := none
        busy := true
        closed := true }, .ok)

/-- A call that concerns this context alone and does not evaluate. The two that do not are left to
the world around the context, and change nothing here. -/
def perform (c : Context) : Call → Context × Reply
  | .evaluate .. => (c, .ok)
  | .push v => (c.push v, .ok)
  | .pop =>
    match c.stack with
    | [] => (c, .stackEmpty)
    | top :: rest => ({ c with stack := rest }, .value top)
  | .peek i =>
    match c.peek? i with
    | some v => (c, .value v)
    | none => (c, .outOfRange)
  | .size => (c, .count c.stack.length)
  | .clearStack => ({ c with stack := [] }, .ok)
  | .set name v => (c.setVariable name v, .ok)
  | .store name =>
    match c.stack with
    | [] => (c, .stackEmpty)
    | top :: rest => ({ c.setVariable name top with stack := rest }, .value top)
  | .get name => (c, .variable (c.vars.get? name))
  | .delete name =>
    ({ c with vars := c.vars.erase name }, .flag (c.vars.contains name))
  | .clearVariables => ({ c with vars := .empty }, .ok)
  | .variableCount => (c, .count c.vars.size)
  | .variableNames => (c, .names c.vars.names)
  | .register name arity callback =>
    match c.operators.register name arity callback with
    | .ok table => ({ c with operators := table }, .ok)
    | .error e => (c, .refused e)
  | .operator name => (c, .operator (c.operators.lookup? name))
  | .operators => (c, .names c.operators.names)
  | .clearOperators => ({ c with operators := c.operators.clear }, .ok)
  | .hook false hook => ({ c with hook := hook }, .ok)
  | .hook true _ => (c, .ok)
  | .close => c.close

end Context

end ReversePolish
