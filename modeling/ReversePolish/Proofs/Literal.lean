import ReversePolish.CommandLine.Definition
import ReversePolish.Proofs.Number.Readback
import ReversePolish.Proofs.Number.Rounding
import ReversePolish.Proofs.Token
import ReversePolish.Session.Command

/-!
Literals mean their decimal value.

A literal is spelled with a sign or none, digits, and possibly a point with further digits
(`Token.Spelled`). The digits have a value by their places (`Numeral.placeValue`), an exact number
whatever their count, and the value of the literal is this number rounded once
(`Value.RoundedFrom`), with the sign of the literal on zero and on infinity as well. As a token the
literal pushes this value. A command or a definition that sets a variable to the literal stores it,
and refuses the literal only if the value is infinite: every literal is a numeral, so nothing else
can be wrong with it.
-/

namespace ReversePolish

namespace Numeral

/-! ## Digits by their places -/

/-- The value of digits before a point. -/
def wholeValue : List Char → ℚ
  | [] => 0
  | c :: rest => ((c.toNat - '0'.toNat : Nat) : ℚ) * 10 ^ rest.length + wholeValue rest

/-- The value of digits behind a point. -/
def fractionValue : List Char → ℚ
  | [] => 0
  | c :: rest => (((c.toNat - '0'.toNat : Nat) : ℚ) + fractionValue rest) / 10

/-- The value of digits before and behind a point. -/
def placeValue (whole fraction : List Char) : ℚ :=
  wholeValue whole + fractionValue fraction

theorem digitsValue_cons {c : Char} {rest : List Char} (digits : Digits (c :: rest)) :
    digitsValue 10 (c :: rest) =
      (c.toNat - '0'.toNat) * 10 ^ rest.length + digitsValue 10 rest := by
  have split := digitsValue_append [c] rest
  rw [List.singleton_append] at split
  rw [split, ← digitValue_of_isDecimalDigit (digits c List.mem_cons_self)]
  show (10 * 0 + digitValue c) * _ + _ = _
  rw [Nat.mul_zero, Nat.zero_add]

theorem wholeValue_eq {cs : List Char} (digits : Digits cs) :
    wholeValue cs = digitsValue 10 cs := by
  induction cs with
  | nil => rfl
  | cons c rest ih =>
      rw [wholeValue, digitsValue_cons digits, ih (fun d member => digits d (.tail c member))]
      push_cast
      rfl

theorem fractionValue_eq {cs : List Char} (digits : Digits cs) :
    fractionValue cs = digitsValue 10 cs / 10 ^ cs.length := by
  induction cs with
  | nil => exact (div_one (0 : ℚ)).symm
  | cons c rest ih =>
      rw [fractionValue, digitsValue_cons digits, ih (fun d member => digits d (.tail c member)),
        List.length_cons, pow_succ]
      push_cast
      field_simp

/-- The value of digits by their places is what they are read as, with the point moved behind
them. -/
theorem placeValue_eq {whole fraction : List Char} (wholeDigits : Digits whole)
    (fractionDigits : Digits fraction) :
    placeValue whole fraction =
      (digitsValue 10 (whole ++ fraction) : ℚ) / ((10 ^ fraction.length : Nat) : ℚ) := by
  rw [placeValue, wholeValue_eq wholeDigits, fractionValue_eq fractionDigits, digitsValue_append]
  push_cast
  field_simp

theorem round_scaled {f : Format} (negative : Bool) (digits n : Nat) :
    (Numeral.scaled negative digits 10 (-(n : Int))).round =
      (Floating.ofRatio negative digits (10 ^ n) : Floating f) := by
  cases n with
  | zero =>
      show Floating.ofRatio negative (digits * 1) 1 = _
      rw [Nat.mul_one, Nat.pow_zero]
  | succ n => rfl

end Numeral

/-! ## Values -/

/-- A value is a magnitude with a sign, rounded once: it is infinite from the middle between the
greatest finite value and the next power of two on, and otherwise the nearest of all values. -/
def Value.RoundedFrom (negative : Bool) (x : ℚ) (v : Value) : Prop :=
  ∃ k : Fin (binary32.top + 1), v = .signed negative k ∧
    (v.isInfinite = true ↔ 2 ^ 128 - 2 ^ 103 ≤ x) ∧
    (v.isInfinite = false → binary32.IsNearest x k)

theorem Value.roundedFrom_ofRatio (negative : Bool) (n : Nat) {d : Nat} (positive : 0 < d) :
    Value.RoundedFrom negative ((n : ℚ) / d) (.ofRatio negative n d) := by
  have denominator : (0 : ℚ) < d := Nat.cast_pos.mpr positive
  refine ⟨⟨binary32.nearest (n * binary32.one) d, _⟩, rfl, ?_, fun finite => ?_⟩
  · have limits : binary32.units (binary32.top - 1) + binary32.units binary32.top =
        2 * ((2 ^ 128 - 2 ^ 103) * binary32.one) := by decide +kernel
    have unit : 0 < binary32.one := Nat.two_pow_pos _
    have limit : (2 ^ 128 - 2 ^ 103 : ℚ) = ((2 ^ 128 - 2 ^ 103 : Nat) : ℚ) := by norm_num
    have infinite : (Floating.ofRatio negative n d : Value).isInfinite = true ↔
        binary32.nearest (n * binary32.one) d = binary32.top := beq_iff_eq
    rw [infinite, binary32.nearest_eq_top_iff (by decide) (by decide) (by decide) _ positive,
      limits, limit, le_div_iff₀ denominator]
    have cleared : 2 * ((2 ^ 128 - 2 ^ 103) * binary32.one) * d ≤ 2 * (n * binary32.one) ↔
        (2 ^ 128 - 2 ^ 103) * d ≤ n := by
      rw [Nat.mul_assoc, Nat.mul_le_mul_left_iff (by decide), Nat.mul_right_comm,
        Nat.mul_le_mul_right_iff unit]
    rw [cleared]
    exact_mod_cast Iff.rfl
  · have nearest := binary32.isNearest_nearest (by decide) (n * binary32.one) positive
      (beq_eq_false_iff_ne.mp finite)
    have same : ((n * binary32.one : Nat) : ℚ) / (d * binary32.one) = (n : ℚ) / d := by
      push_cast
      exact mul_div_mul_right _ _ (ne_of_gt binary32.one_pos)
    rwa [same] at nearest

/-! ## Literals -/

namespace Token

open Numeral

/-- A text is spelled with a sign or none, digits, and possibly a point with digits behind it. -/
def Spelled (token : String) (negative : Bool) (whole fraction : List Char) : Prop :=
  ∃ sign behind, token.toList = sign ++ whole ++ behind ∧
    (sign = [] ∧ negative = false ∨ sign = ['+'] ∧ negative = false ∨
      sign = ['-'] ∧ negative = true) ∧
    (behind = [] ∧ fraction = [] ∨ behind = '.' :: fraction) ∧
    whole ≠ [] ∧ Digits whole ∧ Digits fraction

/-- The parts of a mantissa that leaves nothing. -/
theorem splitMantissa_parts {cs : List Char}
    (through : (splitMantissa isDecimalDigit cs).rest = []) :
    let m := splitMantissa isDecimalDigit cs
    Digits m.whole ∧ Digits m.fraction ∧
      ∃ behind, cs = m.whole ++ behind ∧
        (behind = [] ∧ m.fraction = [] ∨ behind = '.' :: m.fraction) := by
  have parts := List.takeWhile_append_dropWhile (p := isDecimalDigit) (l := cs)
  have digits (cs : List Char) : Digits (cs.takeWhile isDecimalDigit) :=
    fun _ member => List.mem_takeWhile_imp member
  unfold splitMantissa at through ⊢
  split at through
  · rename_i rest point
    have nothing : rest.dropWhile isDecimalDigit = [] := through
    have fraction := List.takeWhile_append_dropWhile (p := isDecimalDigit) (l := rest)
    rw [nothing, List.append_nil] at fraction
    refine ⟨digits cs, digits rest, '.' :: rest, ?_, .inr ?_⟩
    · rw [← point, parts]
    · rw [fraction]
  · have nothing : cs.dropWhile isDecimalDigit = [] := through
    refine ⟨digits cs, nofun, [], ?_, .inl ⟨rfl, rfl⟩⟩
    rw [List.append_nil]
    rwa [nothing, List.append_nil, eq_comm] at parts

/-- A literal is spelled as such, and read as the digits that it is spelled with. -/
theorem spelled_of_isLiteral {token : String} (literal : isLiteral token = true) :
    ∃ negative whole fraction, Spelled token negative whole fraction ∧
      ofText? token =
        some (.scaled negative (digitsValue 10 (whole ++ fraction)) 10 (-fraction.length)) := by
  unfold isLiteral at literal
  rw [Bool.and_eq_true, Bool.not_eq_true', List.isEmpty_iff] at literal
  obtain ⟨some, through⟩ := literal
  rcases split : splitSign token.toList with ⟨negative, body⟩
  rw [split] at some through
  dsimp only at some through
  obtain ⟨wholeDigits, fractionDigits, behind, text, point⟩ := splitMantissa_parts through
  have nonempty := List.isEmpty_eq_false_iff.mp some
  have plain : PlainText body := by
    constructor
    · obtain ⟨c, rest, first⟩ := List.exists_cons_of_ne_nil nonempty
      rw [first] at text wholeDigits
      exact ⟨c, _, text, wholeDigits c List.mem_cons_self⟩
    · intro c member
      rcases splitMantissa_chars through member with digit | rfl
      · exact plain_char_of_isDecimalDigit digit
      · decide
  refine ⟨negative, (splitMantissa isDecimalDigit body).whole,
    (splitMantissa isDecimalDigit body).fraction, ?_, ?_⟩
  · rcases splitSign_cases split with ⟨chars, rfl⟩ | ⟨chars, rfl⟩ | ⟨chars, rfl⟩
    · refine ⟨[], behind, ?_, .inl ⟨rfl, rfl⟩, point, nonempty, wholeDigits, fractionDigits⟩
      rw [chars, List.nil_append, ← text]
    · refine ⟨['+'], behind, ?_, .inr (.inl ⟨rfl, rfl⟩), point, nonempty, wholeDigits,
        fractionDigits⟩
      rw [chars, List.append_assoc, ← text]
      rfl
    · refine ⟨['-'], behind, ?_, .inr (.inr ⟨rfl, rfl⟩), point, nonempty, wholeDigits,
        fractionDigits⟩
      rw [chars, List.append_assoc, ← text]
      rfl
  · rw [ofText?, ofChars?_of_splitSign split plain, decimal?]
    simp only [some, through, Bool.false_and, Bool.false_eq_true, if_false]

/-- A numeral in digits is read as a value unless the value is infinite. -/
theorem read?_of_scaled {token : String} {negative : Bool} {digits base : Nat} {exponent : Int}
    (numeral : ofText? token = some (.scaled negative digits base exponent)) :
    Value.read? token =
      if (literalValue token).isInfinite then none else some (literalValue token) := by
  have overflow : (Numeral.scaled negative digits base exponent).overflows binary32 =
      (literalValue token).isInfinite := by
    rw [literalValue, numeral]
    rfl
  rw [Value.read?, Numeral.read?, numeral]
  dsimp only
  rw [overflow, literalValue, numeral]

end Token

/-! ## Settings and definitions -/

/-- A command to set a variable, by what its text is read as. -/
theorem Session.command_set {s : Session} {c : Context} (home : s.context? = some c)
    {line name token : String} (words : Command.fields line = ["set", name, token]) :
    s.command line =
      match Value.read? token with
      | some v => (s.update (·.setVariable (Text.dropLeading Token.sigil name) v), ⟨"", ""⟩, false)
      | none => (s, ⟨"", s.palette.failure (CommandError.badValue token).message⟩, false) := by
  have parsed : Command.parse line = Command.setting [name, token] := by
    rw [Command.parse, words]
    rfl
  rw [Session.command, home, parsed, Command.setting]
  cases Value.read? token <;> rfl

/-- A definition of a variable, by what its text is read as. -/
theorem CommandLine.parseDefinition_eq {name written : String} (divided : '=' ∉ name.toList)
    (named : Text.dropLeading Token.sigil (Text.trim name) ≠ "") :
    parseDefinition (name ++ "=" ++ written) =
      match Value.read? (Text.trim written) with
      | some v => .ok (Text.dropLeading Token.sigil (Text.trim name), v)
      | none => .error (.badValue (name ++ "=" ++ written)) := by
  have chars : (name ++ "=" ++ written).toList = name.toList ++ '=' :: written.toList := by
    rw [String.toList_append, String.toList_append, List.append_assoc]
    rfl
  have other : ∀ c ∈ name.toList, (c != '=') = true := by
    rintro c member
    rw [bne_iff_ne]
    rintro rfl
    exact divided member
  have before : (name.toList ++ '=' :: written.toList).takeWhile (· != '=') = name.toList := by
    rw [List.takeWhile_append_of_pos other]
    exact List.append_nil _
  have after : (name.toList ++ '=' :: written.toList).dropWhile (· != '=') =
      '=' :: written.toList := by
    rw [List.dropWhile_append_of_pos other]
    rfl
  unfold parseDefinition
  rw [chars, List.span_eq_takeWhile_dropWhile, before, after]
  dsimp only [Text.trim] at named ⊢
  refine (if_neg named).trans ?_
  cases Value.read? (String.ofList (Text.trimBlanks written.toList)) <;> rfl

/-- Every literal is a numeral, and its value is the exact decimal number that it is spelled with,
rounded once to the nearest value, a tie to the even one, with its sign on zero and infinity as
well. This is the value that it pushes as a token. Where a command or a definition sets a variable
to it, this is the value that is stored, and the literal is refused if and only if the value is
infinite. -/
theorem literal_rounded_once {token : String} (literal : Token.isLiteral token = true) :
    let v := Token.literalValue token
    (∃ negative whole fraction, Token.Spelled token negative whole fraction ∧
      Value.RoundedFrom negative (Numeral.placeValue whole fraction) v) ∧
    (Numeral.ofText? token).isSome = true ∧
    (∀ {w : World} {id : Nat} {c : Context}, w.get? id = some c →
      ∀ (evaluate : Evaluator) (strict : Bool),
        handleToken evaluate id strict token w = (w.put id (c.push v), .proceed)) ∧
    (∀ {s : Session} {c : Context} {line name : String}, s.context? = some c →
      Command.fields line = ["set", name, token] →
        s.command line =
          if v.isInfinite then
            (s, ⟨"", s.palette.failure (CommandError.badValue token).message⟩, false)
          else (s.update (·.setVariable (Text.dropLeading Token.sigil name) v), ⟨"", ""⟩, false)) ∧
    (∀ {name written : String}, '=' ∉ name.toList →
      Text.dropLeading Token.sigil (Text.trim name) ≠ "" → Text.trim written = token →
        CommandLine.parseDefinition (name ++ "=" ++ written) =
          if v.isInfinite then .error (.badValue (name ++ "=" ++ written))
          else .ok (Text.dropLeading Token.sigil (Text.trim name), v)) := by
  intro v
  obtain ⟨negative, whole, fraction, spelled, numeral⟩ := Token.spelled_of_isLiteral literal
  have read : Value.read? token = if v.isInfinite then none else some v :=
    Token.read?_of_scaled numeral
  refine ⟨⟨negative, whole, fraction, spelled, ?_⟩, ?_, ?_, ?_, ?_⟩
  · obtain ⟨-, -, -, -, -, -, wholeDigits, fractionDigits⟩ := spelled
    have rounded : v = .ofRatio negative (Numeral.digitsValue 10 (whole ++ fraction))
        (10 ^ fraction.length) := by
      rw [← Numeral.round_scaled]
      show Token.literalValue token = _
      rw [Token.literalValue, numeral]
    rw [Numeral.placeValue_eq wholeDigits fractionDigits, rounded]
    exact Value.roundedFrom_ofRatio negative _ (Nat.pow_pos (by decide))
  · rw [numeral]
    rfl
  · intro w id c present evaluate strict
    simp only [handleToken, present, if_pos literal]
    rfl
  · intro s c line name home words
    rw [Session.command_set home words, read]
    cases v.isInfinite <;> rfl
  · intro name written divided named trimmed
    rw [CommandLine.parseDefinition_eq divided named, trimmed, read]
    cases v.isInfinite <;> rfl

/-- The middle between the greatest finite value and the next power of two is infinite already, and
keeps its sign. -/
theorem literal_rounded_once_limit :
    let token := "-340282356779733661637539395458142568448"
    Token.literalValue token = .infinity true ∧
      CommandLine.parseDefinition ("x" ++ "=" ++ token) =
        .error (.badValue "x=-340282356779733661637539395458142568448") := by
  intro token
  have value : Token.literalValue token = .infinity true := by decide +kernel
  obtain ⟨-, -, -, -, defined⟩ :=
    @literal_rounded_once token (by decide +kernel)
  refine ⟨value, ?_⟩
  rw [defined (by decide) (by decide) (by decide +kernel), value]
  rfl

end ReversePolish
