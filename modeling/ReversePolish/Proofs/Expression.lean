import Mathlib.Data.Fin.Tuple.Basic
import ReversePolish.Variables
import ReversePolish.Proofs.Operator.Library
import ReversePolish.Proofs.Token

/-!
Expression trees and their postfix form.

The leaves of a tree are literals and references to variables; an inner node is a builtin function
with as many operands as its arity. `Expr.eval` is the meaning of a tree, which knows no stack: the
operands of a node have their values from left to right, and the function is applied to them in the
order in which they are written. A function may refuse its operands; then the meaning is the first
node that does, with its token, the place of this token in the postfix form, and the values of the
subtrees to the left of the path to the node.
-/

namespace ReversePolish

/-! ## Functions of operands by place -/

namespace Function

/-- The function as one of as many operands as its arity, in written order. -/
def denote (el : Elementary) : (f : Function) → (Fin f.arity → Value) → Except Status Value
  | .constant c, _ => .ok c.value
  | .unary f, (v : Fin 1 → Value) => f.apply el (v 0)
  | .binary f, (v : Fin 2 → Value) => f.apply el (v 0) (v 1)
  | .ternary f, (v : Fin 3 → Value) => .ok (f.apply (v 0) (v 1) (v 2))
  | .rescale, (v : Fin 5 → Value) => ReversePolish.rescale (v 0) (v 1) (v 2) (v 3) (v 4)

theorem result?_ofFn (el : Elementary) (f : Function) (v : Fin f.arity → Value) :
    f.result? el (List.ofFn v) = some (f.denote el v) := by
  cases f <;> rfl

/-- A refusal has a reason. -/
theorem denote_ne_ok {el : Elementary} {f : Function} {v : Fin f.arity → Value} {reason : Status}
    (refused : f.denote el v = .error reason) : reason ≠ .ok := by
  rintro rfl
  cases f with
  | constant c => cases refused
  | unary f => cases f <;> grind [denote, UnaryFunction.apply]
  | binary f => cases f <;> grind [denote, BinaryFunction.apply]
  | ternary f => cases refused
  | rescale => grind [denote, ReversePolish.rescale]

end Function

/-! ## Trees -/

/-- An expression. -/
inductive Expr where
  | literal (token : String) (isLiteral : Token.isLiteral token = true)
  | reference (name : String) (isWord : Text.IsWord name)
  | apply (f : Function) (operands : Fin f.arity → Expr)

/-- Where the evaluation of an expression stops. -/
structure Stop where
  /-- Why a function refused its operands. -/
  reason : Status
  /-- The token of the function. -/
  token : String
  /-- The place of this token in the postfix form. -/
  position : Nat
  /-- The values of the subtrees that were complete to the left of the path to the node, leftmost
  first. -/
  left : List Value

/-- The same stop, in a tree with a subtree to the left that has `size` tokens and the value `v`. -/
def Stop.behind (size : Nat) (v : Value) (stop : Stop) : Stop :=
  { stop with position := size + stop.position, left := v :: stop.left }

namespace Expr

/-- The tokens of the postfix form. -/
def tokens : Expr → List String
  | .literal token _ => [token]
  | .reference name _ => [Token.reference name]
  | .apply f operands =>
    (List.ofFn fun i => (operands i).tokens).flatten ++ [Builtin.functionName f]

/-- The postfix form. -/
def render (e : Expr) : String :=
  " ".intercalate e.tokens

/-- The tokens in front of a function. -/
def operandTokens {n : Nat} (operands : Fin n → Expr) : List String :=
  (List.ofFn fun i => (operands i).tokens).flatten

/-- The results of operands from left to right, up to the first that has none. -/
def inOrder : {n : Nat} → (sizes : Fin n → Nat) → (results : Fin n → Except Stop Value) →
    Except Stop (Fin n → Value)
  | 0, _, _ => .ok Fin.elim0
  | _ + 1, sizes, results =>
    match results 0 with
    | .error stop => .error stop
    | .ok v =>
      match inOrder (Fin.tail sizes) (Fin.tail results) with
      | .error stop => .error (stop.behind (sizes 0) v)
      | .ok values => .ok (Fin.cons v values)

/-- The value of an expression, or where it has none. A variable that is not set counts as zero. -/
def eval (el : Elementary) (vars : Variables) : Expr → Except Stop Value
  | .literal token _ => .ok (Token.literalValue token)
  | .reference name _ => .ok ((vars.get? name).getD 0)
  | .apply f operands =>
    match inOrder (fun i => (operands i).tokens.length) (fun i => (operands i).eval el vars) with
    | .error stop => .error stop
    | .ok values =>
      match f.denote el values with
      | .ok v => .ok v
      | .error reason =>
        .error ⟨reason, Builtin.functionName f, (operandTokens operands).length, []⟩

/-- The values of operands from left to right. -/
def evalAll (el : Elementary) (vars : Variables) {n : Nat} (operands : Fin n → Expr) :
    Except Stop (Fin n → Value) :=
  inOrder (fun i => (operands i).tokens.length) (fun i => (operands i).eval el vars)

/-! ## Cases of an evaluation -/

section Cases

variable {el : Elementary} {vars : Variables}

theorem evalAll_succ {n : Nat} (operands : Fin (n + 1) → Expr) :
    evalAll el vars operands =
      match (operands 0).eval el vars with
      | .error stop => .error stop
      | .ok v =>
        match evalAll el vars (Fin.tail operands) with
        | .error stop => .error (stop.behind (operands 0).tokens.length v)
        | .ok values => .ok (Fin.cons v values) := rfl

theorem evalAll_ok {n : Nat} {operands : Fin (n + 1) → Expr} {values : Fin (n + 1) → Value}
    (all : evalAll el vars operands = .ok values) :
    ∃ v others, (operands 0).eval el vars = .ok v ∧
      evalAll el vars (Fin.tail operands) = .ok others ∧ values = Fin.cons v others := by
  rw [evalAll_succ] at all
  split at all
  · cases all
  · rename_i v first
    split at all
    · cases all
    · rename_i others rest
      cases all
      exact ⟨v, others, first, rest, rfl⟩

theorem evalAll_error {n : Nat} {operands : Fin (n + 1) → Expr} {stop : Stop}
    (stopped : evalAll el vars operands = .error stop) :
    (operands 0).eval el vars = .error stop ∨
      ∃ v inner, (operands 0).eval el vars = .ok v ∧
        evalAll el vars (Fin.tail operands) = .error inner ∧
        stop = inner.behind (operands 0).tokens.length v := by
  rw [evalAll_succ] at stopped
  split at stopped
  · rename_i first
    cases stopped
    exact .inl first
  · rename_i v first
    split at stopped
    · rename_i inner rest
      cases stopped
      exact .inr ⟨v, inner, first, rest, rfl⟩
    · cases stopped

variable {f : Function} {operands : Fin f.arity → Expr}

theorem eval_apply_ok {v : Value} (evaluated : (apply f operands).eval el vars = .ok v) :
    ∃ values, evalAll el vars operands = .ok values ∧ f.denote el values = .ok v := by
  unfold eval at evaluated
  split at evaluated
  · cases evaluated
  · rename_i values all
    split at evaluated
    · rename_i result applied
      cases evaluated
      exact ⟨values, all, applied⟩
    · cases evaluated

theorem eval_apply_error {stop : Stop} (stopped : (apply f operands).eval el vars = .error stop) :
    evalAll el vars operands = .error stop ∨
      ∃ values reason, evalAll el vars operands = .ok values ∧
        f.denote el values = .error reason ∧
        stop = ⟨reason, Builtin.functionName f, (operandTokens operands).length, []⟩ := by
  unfold eval at stopped
  split at stopped
  · rename_i inner first
    cases stopped
    exact .inl first
  · rename_i values all
    split at stopped
    · cases stopped
    · rename_i reason refused
      cases stopped
      exact .inr ⟨values, reason, all, refused, rfl⟩

end Cases

/-! ## Tokens -/

theorem operandTokens_succ {n : Nat} (operands : Fin (n + 1) → Expr) :
    operandTokens operands = (operands 0).tokens ++ operandTokens (Fin.tail operands) := by
  unfold operandTokens
  rw [List.ofFn_succ, List.flatten_cons]
  rfl

theorem tokens_apply (f : Function) (operands : Fin f.arity → Expr) :
    (apply f operands).tokens = operandTokens operands ++ [Builtin.functionName f] := rfl

theorem isWord_of_mem_tokens (e : Expr) : ∀ token ∈ e.tokens, Text.IsWord token := by
  induction e with
  | literal token isLiteral =>
      intro t member
      rw [List.mem_singleton.mp member]
      exact Token.isWord_of_isLiteral isLiteral
  | reference name isWord =>
      intro t member
      rw [List.mem_singleton.mp member]
      exact Token.isWord_reference isWord
  | apply f operands ih =>
      intro t member
      rw [tokens_apply, List.mem_append, operandTokens, List.mem_flatten, List.mem_singleton]
        at member
      rcases member with ⟨ts, operand, inside⟩ | rfl
      · obtain ⟨i, rfl⟩ := List.mem_ofFn.mp operand
        exact ih i t inside
      · exact Builtin.isWord_name (Builtin.function_mem_library f)

/-- The postfix form is read back. -/
theorem tokenize_render (e : Expr) : Token.tokenize e.render = e.tokens :=
  Text.words_intercalate e.isWord_of_mem_tokens

end Expr

end ReversePolish
