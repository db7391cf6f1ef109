import ReversePolish.Builtin.Function
import ReversePolish.Builtin.StackWord

/-!
The builtin operators.

A builtin is a function, a stack word, or one of three operators with rules of their own: `depth`
looks at the whole stack, `index` takes as many values as the count on top of the stack says, and
`end` may stop the evaluation. `Builtin.run?` is what each does to a stack, and `Builtin.library`
the order in which they are listed.
-/

namespace ReversePolish

/-- The operators that a calculator starts with. -/
inductive Builtin where
  | function (f : Function)
  | word (w : StackWord)
  | depth
  | index
  | stop
  deriving DecidableEq, Repr

/-- What an operator left on the stack (top first), and how the evaluation goes on. -/
structure Effect where
  stack : List Value
  outcome : Outcome
  deriving DecidableEq, Repr

/-- What builtins depend on besides the stack. -/
structure Settings where
  elementary : Elementary
  /-- The largest count that `index` accepts. -/
  maxIndex : Nat

/-- The text that explains an operator. -/
structure Help where
  /-- The stack before, top last. -/
  input : String
  /-- The stack after. -/
  output : String
  action : String
  deriving DecidableEq, Repr

/-- The text for operators without explanation. -/
def Help.empty : Help := ⟨"", "", ""⟩

namespace Builtin

/-! ## Names -/

def functionName : Function → String
  | .constant .pi => "pi"
  | .constant .e => "e"
  | .unary .abs => "abs"
  | .unary .sqrt => "sqrt"
  | .unary .log => "log"
  | .unary .log10 => "log10"
  | .unary .exp => "exp"
  | .unary .cos => "cos"
  | .unary .sin => "sin"
  | .unary .tan => "tan"
  | .unary .not => "not"
  | .unary .ceil => "ceil"
  | .unary .floor => "floor"
  | .unary .int => "int"
  | .binary .add => "+"
  | .binary .sub => "-"
  | .binary .mul => "*"
  | .binary .div => "/"
  | .binary .mod => "mod"
  | .binary .fmod => "fmod"
  | .binary .pow => "pow"
  | .binary .eq => "=="
  | .binary .ne => "!="
  | .binary .gt => ">"
  | .binary .ge => ">="
  | .binary .lt => "<"
  | .binary .le => "<="
  | .binary .cmp => "cmp"
  | .binary .and => "and"
  | .binary .or => "or"
  | .binary .xor => "xor"
  | .binary .round => "round"
  | .ternary .cmp3 => "cmp3"
  | .ternary .constrain => "constrain"
  | .ternary .ifn => "ifn"
  | .rescale => "map"

def wordName : StackWord → String
  | .dup => "dup"
  | .dup2 => "dup2"
  | .swap => "swap"
  | .rot => "rot"
  | .unrot => "unrot"
  | .over => "over"
  | .drop => "drop"

/-- The token that calls a builtin. -/
def name : Builtin → String
  | .function f => functionName f
  | .word w => wordName w
  | .depth => "depth"
  | .index => "index"
  | .stop => "end"

/-- The number of values that a builtin needs on the stack. For `index` this is the count alone. -/
def arity : Builtin → Nat
  | .function f => f.arity
  | .word w => w.arity
  | .depth => 0
  | .index => 1
  | .stop => 1

/-! ## Explanations -/

def functionHelp : Function → Help
  | .constant .pi => ⟨"", "pi", "Pushes the value of pi."⟩
  | .constant .e => ⟨"", "e", "Pushes the value of e."⟩
  | .unary .abs => ⟨"a", "|a|", "Absolute value."⟩
  | .unary .sqrt => ⟨"a", "sqrt(a)", "Square root. Fails when a is negative."⟩
  | .unary .log => ⟨"a", "ln(a)", "Natural logarithm. Fails when a <= 0."⟩
  | .unary .log10 => ⟨"a", "log10(a)", "Base 10 logarithm. Fails when a <= 0."⟩
  | .unary .exp => ⟨"a", "e^a", "Exponential."⟩
  | .unary .cos => ⟨"a", "cos(a)", "Cosine, a in radians."⟩
  | .unary .sin => ⟨"a", "|sin(a)|", "Sine derived from cosine, sign is lost outside [0,pi]."⟩
  | .unary .tan => ⟨"a", "tan(a)", "Tangent derived from cosine. Fails when cos(a) is zero."⟩
  | .unary .not => ⟨"a", "!a", "Logical not."⟩
  | .unary .ceil => ⟨"a", "ceil(a)", "Smallest integer not less than a."⟩
  | .unary .floor => ⟨"a", "floor(a)", "Largest integer not greater than a."⟩
  | .unary .int => ⟨"a", "floor(a)", "Alias of floor."⟩
  | .binary .add => ⟨"a b", "a+b", "Addition."⟩
  | .binary .sub => ⟨"a b", "a-b", "Subtraction."⟩
  | .binary .mul => ⟨"a b", "a*b", "Multiplication."⟩
  | .binary .div => ⟨"a b", "a/b", "Division. Fails when b is zero."⟩
  | .binary .mod =>
    ⟨"a b", "a mod b", "Remainder of the integer parts of a and b, signed like a."⟩
  | .binary .fmod =>
    ⟨"a b", "fmod(a,b)", "Floating point remainder. Fails when b is zero."⟩
  | .binary .pow => ⟨"a b", "a^b", "Power."⟩
  | .binary .eq => ⟨"a b", "a==b", "1 when equal, else 0."⟩
  | .binary .ne => ⟨"a b", "a!=b", "1 when different, else 0."⟩
  | .binary .gt => ⟨"a b", "a>b", "1 when a is greater than b, else 0."⟩
  | .binary .ge => ⟨"a b", "a>=b", "1 when a is greater than or equal to b, else 0."⟩
  | .binary .lt => ⟨"a b", "a<b", "1 when a is less than b, else 0."⟩
  | .binary .le => ⟨"a b", "a<=b", "1 when a is less than or equal to b, else 0."⟩
  | .binary .cmp => ⟨"value threshold", "-1|0|1", "Compares value against threshold."⟩
  | .binary .and => ⟨"a b", "a&&b", "Logical and."⟩
  | .binary .or => ⟨"a b", "a||b", "Logical or."⟩
  | .binary .xor => ⟨"a b", "a^^b", "Logical exclusive or."⟩
  | .binary .round =>
    ⟨"a decimals", "a",
      "Rounds a to the integer part of decimals (0-8) places, halves away from zero."⟩
  | .ternary .cmp3 =>
    ⟨"value low high", "-1|0|1", "-1 below low, 1 above high, 0 within the range."⟩
  | .ternary .constrain => ⟨"value low high", "value", "Clamps value to [low,high]."⟩
  | .ternary .ifn =>
    ⟨"cond then else", "then|else", "Pushes then when cond is non-zero, else otherwise."⟩
  | .rescale =>
    ⟨"value from_low from_high to_low to_high", "value",
      "Rescales value from one range to another, clamping it to the source range first. " ++
        "Fails when from_low equals from_high."⟩

def wordHelp : StackWord → Help
  | .dup => ⟨"a", "a a", "Duplicates the top value."⟩
  | .dup2 => ⟨"a b", "a b a b", "Duplicates the top two values."⟩
  | .swap => ⟨"a b", "b a", "Swaps the top two values."⟩
  | .rot => ⟨"a b c", "b c a", "Moves the third value to the top."⟩
  | .unrot => ⟨"a b c", "c a b", "Moves the top value below the next two."⟩
  | .over => ⟨"a b", "a b a", "Copies the second value to the top."⟩
  | .drop => ⟨"a", "", "Discards the top value."⟩

/-- The explanation of a builtin. -/
def help : Builtin → Help
  | .function f => functionHelp f
  | .word w => wordHelp w
  | .depth => ⟨"", "n", "Pushes the number of values on the stack."⟩
  | .index =>
    ⟨"index v0 .. vN-1 N", "v[index]", "Selects one of N values by a zero based index."⟩
  | .stop => ⟨"cond", "", "Stops evaluation successfully when cond is non-zero."⟩

/-! ## Effects -/

/-- Replace the operands of a function by its result. A refusal removes them too. -/
def runFunction (el : Elementary) (f : Function) (stack : List Value) : Option Effect :=
  match f.result? el (stack.take f.arity).reverse with
  | some (.ok v) => some ⟨v :: stack.drop f.arity, .proceed⟩
  | some (.error reason) => some ⟨stack.drop f.arity, .fail reason⟩
  | none => none

/-- Choose among `n` values: the stack holds them, the last one first, above the place of the one to
choose. The values and the place are gone in any case. -/
def choose (n : Nat) (stack : List Value) : Option Effect :=
  match stack.drop n with
  | [] => none
  | place :: rest =>
    match place.integerPart? with
    | some i =>
      if 0 ≤ i ∧ i < n then
        match (stack.take n).reverse[i.toNat]? with
        | some v => some ⟨v :: rest, .proceed⟩
        | none => none
      else some ⟨rest, .fail .invalidArgument⟩
    | none => some ⟨rest, .fail .invalidArgument⟩

/-- Take a count off the stack and choose among as many values. A count that is not positive or too
large is refused, and so is one for which the stack is too short; only the count is gone then. -/
def runIndex (maxIndex : Nat) : List Value → Option Effect
  | [] => none
  | top :: rest =>
    let n := top.count
    if n ≤ 0 ∨ (maxIndex : Int) < n then some ⟨rest, .fail .invalidArgument⟩
    else if (rest.length : Int) < n + 1 then some ⟨rest, .fail .argumentCount⟩
    else choose n.toNat rest

/-- What a builtin does to a stack; `none` if the stack is too short for it. -/
def run? (set : Settings) (b : Builtin) (stack : List Value) : Option Effect :=
  match b with
  | .function f => runFunction set.elementary f stack
  | .word w => (w.run? stack).map (⟨·, .proceed⟩)
  | .depth => some ⟨.ofInt stack.length :: stack, .proceed⟩
  | .index => runIndex set.maxIndex stack
  | .stop =>
    match stack with
    | [] => none
    | top :: rest => some ⟨rest, if Value.isTrue top then .halt else .proceed⟩

/-! ## The library -/

def arithmetic : List Builtin :=
  [.function (.constant .pi), .function (.constant .e), .function (.binary .add),
    .function (.binary .sub), .function (.binary .mul), .function (.binary .div),
    .function (.binary .mod), .function (.unary .abs)]

/-- The operators that a calculator may be built without. -/
def advanced : List Builtin :=
  [.function (.unary .sqrt), .function (.unary .log), .function (.unary .log10),
    .function (.unary .exp), .function (.binary .fmod), .function (.binary .pow),
    .function (.unary .cos), .function (.unary .sin), .function (.unary .tan)]

def logic : List Builtin :=
  [.function (.binary .eq), .function (.binary .ne), .function (.binary .gt),
    .function (.binary .ge), .function (.binary .lt), .function (.binary .le),
    .function (.binary .cmp), .function (.ternary .cmp3), .function (.binary .and),
    .function (.binary .or), .function (.binary .xor), .function (.unary .not)]

def ranges : List Builtin :=
  [.function (.ternary .constrain), .function .rescale, .index]

def stackWords : List Builtin :=
  [.word .dup, .word .dup2, .word .swap, .word .rot, .word .unrot, .word .over, .word .drop, .depth]

def rounding : List Builtin :=
  [.function (.binary .round), .function (.unary .ceil), .function (.unary .floor),
    .function (.unary .int)]

def control : List Builtin :=
  [.function (.ternary .ifn), .stop]

/-- The builtins in the order in which they are registered. -/
def library (withAdvanced : Bool) : List Builtin :=
  arithmetic ++ (if withAdvanced then advanced else []) ++ logic ++ ranges ++ stackWords ++
    rounding ++ control

end Builtin

end ReversePolish
