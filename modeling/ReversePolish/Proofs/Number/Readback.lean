import Mathlib.Data.List.Induction
import Mathlib.Data.List.TakeWhile
import ReversePolish.Proofs.Number.Shortest

/-!
Decimals that are written and read back.

A decimal is written as a mantissa, digits with a point among them, behind which an exponent may
stand. A numeral of this form is read as its digits, with the exponent lowered by the number of
digits behind the point; this is the number that the decimal stands for, in all of its layouts.
-/

namespace ReversePolish

namespace Numeral

/-! ## Digits -/

/-- Characters that are all decimal digits. -/
def Digits (cs : List Char) : Prop :=
  ∀ c ∈ cs, isDecimalDigit c = true

theorem Digits.append {xs ys : List Char} (left : Digits xs) (right : Digits ys) :
    Digits (xs ++ ys) :=
  fun c member => (List.mem_append.mp member).elim (left c) (right c)

theorem digits_zeros (n : Nat) : Digits (List.replicate n '0') := by
  intro c member
  rw [List.eq_of_mem_replicate member]
  decide

theorem digits_toDigits (n : Nat) : Digits (Nat.toDigits 10 n) :=
  fun _ member => Nat.isDigit_of_mem_toDigits (by decide) (by decide) member

theorem digitValue_of_isDecimalDigit {c : Char} (digit : isDecimalDigit c = true) :
    digitValue c = c.toNat - '0'.toNat := by
  have high := (isDecimalDigit_iff.mp digit).2
  have small : ¬ 'a' ≤ c := fun above => absurd (show 97 ≤ c.toNat from above) (by omega)
  have capital : ¬ 'A' ≤ c := fun above => absurd (show 65 ≤ c.toNat from above) (by omega)
  rw [digitValue, if_neg small, if_neg capital]

theorem digitsValue_append (xs ys : List Char) :
    digitsValue 10 (xs ++ ys) = digitsValue 10 xs * 10 ^ ys.length + digitsValue 10 ys := by
  have shifted : ∀ (cs : List Char) (n : Nat),
      cs.foldl (fun n c => 10 * n + digitValue c) n = n * 10 ^ cs.length + digitsValue 10 cs := by
    intro cs
    induction cs with
    | nil => intro n; simp [digitsValue]
    | cons c cs ih =>
        intro n
        rw [digitsValue, List.foldl_cons, List.foldl_cons, ih, ih (10 * 0 + digitValue c),
          List.length_cons]
        ring
  rw [digitsValue, List.foldl_append]
  exact shifted ys _

theorem digitsValue_zeros (n : Nat) : digitsValue 10 (List.replicate n '0') = 0 := by
  induction n with
  | zero => rfl
  | succ n ih =>
      rw [List.replicate_succ']
      rw [digitsValue_append, ih]
      decide

theorem digitsValue_toDigits (n : Nat) : digitsValue 10 (Nat.toDigits 10 n) = n := by
  have same : ∀ {cs : List Char}, Digits cs → ∀ a,
      cs.foldl (fun n c => 10 * n + digitValue c) a = Nat.ofDigitChars 10 cs a := by
    intro cs digits
    induction cs with
    | nil => intro a; rfl
    | cons c cs ih =>
        intro a
        have rest := ih (fun d member => digits d (List.mem_cons_of_mem c member))
        rw [List.foldl_cons, digitValue_of_isDecimalDigit (digits c List.mem_cons_self), rest]
        rfl
  exact (same (digits_toDigits n) 0).trans (Nat.ofDigitChars_toDigits (by decide) (by decide))

/-- An exponent of five digits is read to its end. -/
theorem exponentValue_eq {cs : List Char} (small : digitsValue 10 cs < 10 * exponentBound) :
    exponentValue cs = digitsValue 10 cs := by
  induction cs using List.reverseRecOn with
  | nil => rfl
  | append_singleton cs c ih =>
      have last : digitsValue 10 (cs ++ [c]) = 10 * digitsValue 10 cs + digitValue c := by
        rw [digitsValue, List.foldl_append]
        rfl
      have before : exponentValue cs = digitsValue 10 cs := ih (by omega)
      have step : exponentValue (cs ++ [c]) =
          if exponentValue cs < exponentBound then 10 * exponentValue cs + digitValue c
          else exponentValue cs := by
        rw [exponentValue, List.foldl_append]
        rfl
      rw [step, before, if_pos (by omega), last]

/-! ## Mantissas -/

/-- A text of digits with a point before the last of them, if there are any behind it. -/
def mantissa (whole fraction : List Char) : List Char :=
  match fraction with
  | [] => whole
  | digits => whole ++ '.' :: digits

theorem mantissa_of_ne_nil {whole fraction : List Char} (some : fraction ≠ []) :
    mantissa whole fraction = whole ++ '.' :: fraction := by
  unfold mantissa
  split
  · exact absurd rfl some
  · rfl

/-- The characters that end a mantissa. -/
def Ends (rest : List Char) : Prop :=
  rest = [] ∨ ∃ tail, rest = 'e' :: tail

theorem takeWhile_digits {cs rest : List Char} (digits : Digits cs)
    (other : rest.takeWhile isDecimalDigit = []) :
    (cs ++ rest).takeWhile isDecimalDigit = cs ∧
      (cs ++ rest).dropWhile isDecimalDigit = rest := by
  have whole := List.takeWhile_append_dropWhile (p := isDecimalDigit) (l := rest)
  rw [other, List.nil_append] at whole
  rw [List.takeWhile_append_of_pos digits, List.dropWhile_append_of_pos digits, other, whole]
  exact ⟨List.append_nil cs, rfl⟩

theorem splitMantissa_mantissa {whole fraction rest : List Char} (wholeDigits : Digits whole)
    (fractionDigits : Digits fraction) (ends : Ends rest) :
    splitMantissa isDecimalDigit (mantissa whole fraction ++ rest) = ⟨whole, fraction, rest⟩ := by
  have other : rest.takeWhile isDecimalDigit = [] := by
    rcases ends with rfl | ⟨tail, rfl⟩ <;> rfl
  unfold mantissa
  split
  · obtain ⟨taken, dropped⟩ := takeWhile_digits wholeDigits other
    rw [splitMantissa, taken, dropped]
    rcases ends with rfl | ⟨tail, rfl⟩ <;> rfl
  · have point : ('.' :: (fraction ++ rest)).takeWhile isDecimalDigit = [] := rfl
    obtain ⟨taken, dropped⟩ := takeWhile_digits wholeDigits point
    obtain ⟨taken', dropped'⟩ := takeWhile_digits fractionDigits other
    rw [List.append_assoc, List.cons_append, splitMantissa, taken, dropped]
    simp only [taken', dropped']

section Reading

variable {whole fraction : List Char} (some : whole ≠ []) (wholeDigits : Digits whole)
  (fractionDigits : Digits fraction)
include some wholeDigits fractionDigits

theorem decimal?_mantissa (negative : Bool) :
    decimal? negative (mantissa whole fraction) =
      .some (.scaled negative (digitsValue 10 (whole ++ fraction)) 10 (-fraction.length)) := by
  have split := splitMantissa_mantissa wholeDigits fractionDigits (.inl rfl)
  rw [List.append_nil] at split
  rw [decimal?, split]
  simp [some]

theorem decimal?_mantissa_exponent {tail : List Char} {e : Int} (read : exponent? tail = .some e)
    (negative : Bool) :
    decimal? negative (mantissa whole fraction ++ 'e' :: tail) =
      .some (.scaled negative (digitsValue 10 (whole ++ fraction)) 10 (-fraction.length + e)) := by
  have split := splitMantissa_mantissa wholeDigits fractionDigits (.inr ⟨tail, rfl⟩)
  rw [decimal?, split]
  simp [some, read]

end Reading

/-! ## Signs and exponents -/

theorem splitSign_sign {c : Char} {rest : List Char} (digit : isDecimalDigit c = true)
    (negative : Bool) :
    splitSign (if negative then '-' :: c :: rest else c :: rest) = (negative, c :: rest) := by
  cases negative with
  | true => rfl
  | false =>
      show splitSign (c :: rest) = _
      unfold splitSign
      split
      · rename_i same
        cases same
        exact absurd digit (by decide)
      · rename_i same
        cases same
        exact absurd digit (by decide)
      · rfl

/-- An exponent with its sign, and with zeros in front. -/
def exponentText (zeros : Nat) (n : Int) : List Char :=
  (if n < 0 then '-' else '+') :: (List.replicate zeros '0' ++ Nat.toDigits 10 n.natAbs)

theorem exponent?_exponentText {n : Int} (small : n.natAbs < 10 * exponentBound) (zeros : Nat) :
    exponent? (exponentText zeros n) = some n := by
  have digits : Digits (List.replicate zeros '0' ++ Nat.toDigits 10 n.natAbs) :=
    (digits_zeros zeros).append (digits_toDigits n.natAbs)
  have number : digitsValue 10 (List.replicate zeros '0' ++ Nat.toDigits 10 n.natAbs) =
      n.natAbs := by
    rw [digitsValue_append, digitsValue_zeros, digitsValue_toDigits, Nat.zero_mul, Nat.zero_add]
  have nonempty : List.replicate zeros '0' ++ Nat.toDigits 10 n.natAbs ≠ [] := by
    intro empty
    have none := (List.append_eq_nil_iff.mp empty).2
    exact absurd (congrArg List.length none) Nat.length_toDigits_pos.ne'
  have read : exponentValue (List.replicate zeros '0' ++ Nat.toDigits 10 n.natAbs) = n.natAbs := by
    rw [exponentValue_eq (by rw [number]; exact small), number]
  have all := List.all_eq_true.mpr digits
  unfold exponentText
  generalize List.replicate zeros '0' ++ Nat.toDigits 10 n.natAbs = cs at *
  split
  · simp [exponent?, splitSign, nonempty, all, read, -Nat.cast_natAbs]
    omega
  · simp [exponent?, splitSign, nonempty, all, read, -Nat.cast_natAbs]
    omega

/-! ## Whole texts -/

/-- A text that begins with a digit and has only characters of decimal numerals. -/
structure PlainText (cs : List Char) : Prop where
  head : ∃ c rest, cs = c :: rest ∧ isDecimalDigit c = true
  chars : ∀ c ∈ cs, c ≠ '_' ∧ c ≠ 'x' ∧ c ≠ 'X'

theorem plain_char_of_isDecimalDigit {c : Char} (digit : isDecimalDigit c = true) :
    c ≠ '_' ∧ c ≠ 'x' ∧ c ≠ 'X' := by
  refine ⟨?_, ?_, ?_⟩ <;> rintro rfl <;> exact absurd digit (by decide)

theorem plain_mantissa {whole fraction : List Char} (some : whole ≠ [])
    (wholeDigits : Digits whole) (fractionDigits : Digits fraction) :
    PlainText (mantissa whole fraction) := by
  constructor
  · obtain ⟨c, cs, rfl⟩ := List.exists_cons_of_ne_nil some
    have digit := wholeDigits c List.mem_cons_self
    unfold mantissa
    split <;> exact ⟨c, _, rfl, digit⟩
  · intro c member
    unfold mantissa at member
    split at member
    · exact plain_char_of_isDecimalDigit (wholeDigits c member)
    · rcases List.mem_append.mp member with inWhole | behind
      · exact plain_char_of_isDecimalDigit (wholeDigits c inWhole)
      · rcases List.mem_cons.mp behind with rfl | inFraction
        · decide
        · exact plain_char_of_isDecimalDigit (fractionDigits c inFraction)

theorem PlainText.append_exponent {cs : List Char} (plain : PlainText cs) (zeros : Nat) (n : Int) :
    PlainText (cs ++ 'e' :: exponentText zeros n) := by
  constructor
  · obtain ⟨c, rest, rfl, digit⟩ := plain.head
    exact ⟨c, _, rfl, digit⟩
  · intro c member
    rcases List.mem_append.mp member with before | behind
    · exact plain.chars c before
    · rcases List.mem_cons.mp behind with rfl | inText
      · decide
      · rcases List.mem_cons.mp inText with rfl | inDigits
        · split <;> decide
        · exact plain_char_of_isDecimalDigit
            ((digits_zeros zeros).append (digits_toDigits n.natAbs) c inDigits)

theorem separatesDigits_of_plain {cs : List Char} (free : ∀ c ∈ cs, c ≠ '_')
    (isDigit : Char → Bool) (afterDigit : Bool) :
    separatesDigits isDigit afterDigit cs = true := by
  induction cs generalizing afterDigit with
  | nil => rfl
  | cons c cs ih =>
      rw [separatesDigits, if_neg (free c List.mem_cons_self)]
      exact ih (fun d member => free d (List.mem_cons_of_mem c member)) _

theorem hexadecimalTail?_of_plain {cs : List Char} (plain : PlainText cs) :
    hexadecimalTail? cs = none := by
  unfold hexadecimalTail?
  split
  · rename_i mark c rest
    have other := plain.chars mark (by simp)
    rw [if_neg (by simp [other.2])]
  · rfl

theorem toLower_of_isDecimalDigit {c : Char} (digit : isDecimalDigit c = true) :
    c.toLower = c := by
  have high := (isDecimalDigit_iff.mp digit).2
  unfold Char.toLower
  rw [dif_neg]
  rintro ⟨low, -⟩
  exact absurd (show 65 ≤ c.toNat from low) (by omega)

theorem splitSign_cases {cs body : List Char} {negative : Bool}
    (split : splitSign cs = (negative, body)) :
    cs = body ∧ negative = false ∨ cs = '+' :: body ∧ negative = false ∨
      cs = '-' :: body ∧ negative = true := by
  unfold splitSign at split
  split at split <;> cases split
  · exact .inr (.inl ⟨rfl, rfl⟩)
  · exact .inr (.inr ⟨rfl, rfl⟩)
  · exact .inl ⟨rfl, rfl⟩

/-- A text in decimal digits is read as such behind a sign. -/
theorem ofChars?_of_splitSign {cs body : List Char} {negative : Bool}
    (split : splitSign cs = (negative, body)) (plain : PlainText body) :
    ofChars? cs = decimal? negative body := by
  obtain ⟨c, rest, rfl, digit⟩ := plain.head
  have lower := toLower_of_isDecimalDigit digit
  have noWord : ∀ (d : Char) (word : List Char), isDecimalDigit d = false →
      (c :: rest).map Char.toLower ≠ d :: word := by
    rintro d word other same
    rw [List.map_cons, lower] at same
    rw [(List.cons.inj same).1] at digit
    exact absurd digit (by rw [other]; decide)
  have kept : (c :: rest).filter (· != '_') = c :: rest :=
    List.filter_eq_self.mpr (fun d member => by simp [(plain.chars d member).1])
  have separated : wellSeparated (c :: rest) = true := by
    rw [wellSeparated, hexadecimalTail?_of_plain plain]
    exact separatesDigits_of_plain (fun d member => (plain.chars d member).1) _ _
  have noNan : cs.map Char.toLower ≠ ['n', 'a', 'n'] := by
    rcases splitSign_cases split with ⟨rfl, -⟩ | ⟨rfl, -⟩ | ⟨rfl, -⟩
    · exact noWord 'n' _ (by decide)
    · exact fun same => absurd (List.cons.inj same).1 (by decide)
    · exact fun same => absurd (List.cons.inj same).1 (by decide)
  rw [ofChars?, split]
  dsimp only
  rw [if_neg, if_neg noNan, if_pos separated, kept, inDigits?, hexadecimalTail?_of_plain plain]
  rintro (same | same)
  · exact noWord 'i' _ (by decide) same
  · exact noWord 'i' _ (by decide) same

/-- A text in decimal digits is read as such, with or without a minus. -/
theorem ofChars?_of_plain {cs : List Char} (plain : PlainText cs) (negative : Bool) :
    ofChars? (if negative then '-' :: cs else cs) = decimal? negative cs := by
  obtain ⟨c, rest, rfl, digit⟩ := plain.head
  exact ofChars?_of_splitSign (splitSign_sign digit negative) plain

end Numeral

namespace Decimal

open Numeral

/-! ## Layouts -/

/-- The parts of a mantissa in which a decimal is written, and the exponent that is left over. -/
structure Parts (d : Decimal) (whole fraction : List Char) (rest : Int) : Prop where
  nonempty : whole ≠ []
  wholeDigits : Digits whole
  fractionDigits : Digits fraction
  same : value (digitsValue 10 (whole ++ fraction)) (-fraction.length + rest) =
    value d.digits d.exponent

theorem toDigits_ne_nil (n : Nat) : Nat.toDigits 10 n ≠ [] :=
  List.ne_nil_of_length_pos Nat.length_toDigits_pos

/-- The exponent of the leading digit. -/
def leading (d : Decimal) : Int :=
  d.exponent + digitCount d.digits - 1

/-- Digits that stand for the same number as those of the decimal, at the same place. -/
theorem parts_of_digitsValue {d : Decimal} {whole fraction : List Char} {rest : Int}
    (nonempty : whole ≠ []) (wholeDigits : Digits whole) (fractionDigits : Digits fraction)
    {zeros : Nat} (number : digitsValue 10 (whole ++ fraction) = d.digits * 10 ^ zeros)
    (place : d.exponent = -fraction.length + rest + zeros) : d.Parts whole fraction rest := by
  refine ⟨nonempty, wholeDigits, fractionDigits, ?_⟩
  rw [number, value_shift, place]

section Positional

variable {d : Decimal} {cs : List Char} (digits : Digits cs)
  (number : digitsValue 10 cs = d.digits)
include digits number

/-- All digits stand behind the point, after some zeros. -/
theorem parts_behind_point (small : d.exponent + cs.length ≤ 0) :
    d.Parts ['0'] (List.replicate (-(d.exponent + cs.length)).toNat '0' ++ cs) 0 := by
  have total : digitsValue 10
      (['0'] ++ (List.replicate (-(d.exponent + cs.length)).toNat '0' ++ cs)) =
        d.digits * 10 ^ 0 := by
    rw [digitsValue_append, digitsValue_append, digitsValue_zeros, number]
    show 0 * _ + (0 * _ + d.digits) = _
    omega
  refine parts_of_digitsValue (by simp) (digits_zeros 1) ((digits_zeros _).append digits) total ?_
  simp only [List.length_append, List.length_replicate]
  omega

/-- All digits stand before the point, and zeros follow them. -/
theorem parts_before_point (some : cs ≠ [])
    (short : cs.length ≤ (d.exponent + cs.length).toNat) :
    d.Parts (cs ++ List.replicate ((d.exponent + cs.length).toNat - cs.length) '0') [] 0 := by
  have total : digitsValue 10
      (cs ++ List.replicate ((d.exponent + cs.length).toNat - cs.length) '0' ++ []) =
        d.digits * 10 ^ ((d.exponent + cs.length).toNat - cs.length) := by
    rw [List.append_nil, digitsValue_append, digitsValue_zeros, number, List.length_replicate,
      Nat.add_zero]
  have length := List.length_pos_of_ne_nil some
  refine parts_of_digitsValue (by simp [some])
    (digits.append (digits_zeros _)) (digits_zeros 0) total ?_
  rw [List.length_nil]
  omega

/-- The point stands among the digits. -/
theorem parts_around_point {n : Nat} (place : d.exponent + cs.length = n) (after : 0 < n)
    (before : n < cs.length) : d.Parts (cs.take n) (cs.drop n) 0 := by
  have total : digitsValue 10 (cs.take n ++ cs.drop n) = d.digits * 10 ^ 0 := by
    rw [List.take_append_drop, number, Nat.pow_zero, Nat.mul_one]
  have nonempty : cs.take n ≠ [] := by
    refine List.ne_nil_of_length_pos ?_
    rw [List.length_take]
    omega
  refine parts_of_digitsValue nonempty (fun c member => digits c (List.mem_of_mem_take member))
    (fun c member => digits c (List.mem_of_mem_drop member)) total ?_
  rw [List.length_drop]
  omega

end Positional

theorem positional_eq (d : Decimal) :
    ∃ whole fraction, d.Parts whole fraction 0 ∧
      positional (Nat.toDigits 10 d.digits) (d.leading + 1) = mantissa whole fraction := by
  have digits := digits_toDigits d.digits
  have number := digitsValue_toDigits d.digits
  have some := toDigits_ne_nil d.digits
  have place : d.leading + 1 = d.exponent + (Nat.toDigits 10 d.digits).length := by
    unfold leading digitCount
    omega
  rw [place]
  generalize Nat.toDigits 10 d.digits = cs at *
  unfold positional
  split
  · rename_i small
    have behind : List.replicate (-(d.exponent + cs.length)).toNat '0' ++ cs ≠ [] := by
      simp [some]
    refine ⟨_, _, parts_behind_point digits number small, ?_⟩
    rw [mantissa_of_ne_nil behind]
    rfl
  · rename_i large
    dsimp only
    split
    · rename_i short
      exact ⟨_, _, parts_before_point digits number some short, rfl⟩
    · rename_i long
      have place : d.exponent + cs.length = ((d.exponent + cs.length).toNat : Int) := by omega
      have behind : cs.drop (d.exponent + cs.length).toNat ≠ [] := by
        refine List.ne_nil_of_length_pos ?_
        rw [List.length_drop]
        omega
      refine ⟨_, _, parts_around_point digits number place (by omega) (by omega), ?_⟩
      rw [mantissa_of_ne_nil behind]

theorem scientific_eq (layout : Layout) (d : Decimal) :
    ∃ whole fraction zeros, d.Parts whole fraction d.leading ∧
      scientific layout (Nat.toDigits 10 d.digits) d.leading =
        mantissa whole fraction ++ 'e' :: exponentText zeros d.leading := by
  have digits := digits_toDigits d.digits
  have number := digitsValue_toDigits d.digits
  have some := Nat.length_toDigits_pos (b := 10) (n := d.digits)
  have place : d.leading = d.exponent + (Nat.toDigits 10 d.digits).length - 1 := rfl
  generalize Nat.toDigits 10 d.digits = cs at *
  cases cs with
  | nil => cases some
  | cons c cs =>
      have total : digitsValue 10 ([c] ++ cs) = d.digits * 10 ^ 0 := by
        rw [List.singleton_append, number, Nat.pow_zero, Nat.mul_one]
      refine ⟨[c], cs, layout.exponentDigits - (Nat.toDigits 10 d.leading.natAbs).length,
        parts_of_digitsValue (by simp) ?_ ?_ total ?_, ?_⟩
      · exact fun e member => digits e (List.mem_singleton.mp member ▸ List.mem_cons_self)
      · exact fun e member => digits e (List.mem_cons_of_mem c member)
      · rw [place, List.length_cons]
        omega
      · cases cs <;> rfl

/-- The text of a decimal is a mantissa, with or without an exponent. -/
theorem render_cases (layout : Layout) (d : Decimal) :
    (∃ whole fraction, d.Parts whole fraction 0 ∧ render layout d = mantissa whole fraction) ∨
      ∃ whole fraction zeros, d.Parts whole fraction d.leading ∧
        render layout d = mantissa whole fraction ++ 'e' :: exponentText zeros d.leading := by
  by_cases positioned : layout.positionalFrom ≤ d.leading ∧ d.leading < layout.positionalBelow
  · obtain ⟨whole, fraction, parts, text⟩ := d.positional_eq
    exact .inl ⟨whole, fraction, parts, (if_pos positioned).trans text⟩
  · obtain ⟨whole, fraction, zeros, parts, text⟩ := scientific_eq layout d
    exact .inr ⟨whole, fraction, zeros, parts, (if_neg positioned).trans text⟩

theorem Parts.plain {d : Decimal} {whole fraction : List Char} {rest : Int}
    (parts : d.Parts whole fraction rest) : PlainText (mantissa whole fraction) :=
  plain_mantissa parts.nonempty parts.wholeDigits parts.fractionDigits

theorem plain_render (layout : Layout) (d : Decimal) : PlainText (render layout d) := by
  rcases render_cases layout d with ⟨whole, fraction, parts, text⟩ |
    ⟨whole, fraction, zeros, parts, text⟩
  · rw [text]
    exact parts.plain
  · rw [text]
    exact parts.plain.append_exponent zeros d.leading

/-- The text of a decimal is read, with or without a sign, as a numeral that stands for the same
number. -/
theorem ofChars?_render (layout : Layout) {d : Decimal}
    (small : d.leading.natAbs < 10 * exponentBound) (negative : Bool) :
    ∃ digits exponent, value digits exponent = value d.digits d.exponent ∧
      ofChars? (if negative then '-' :: render layout d else render layout d) =
        some (.scaled negative digits 10 exponent) := by
  rw [ofChars?_of_plain (plain_render layout d)]
  rcases render_cases layout d with ⟨whole, fraction, parts, text⟩ |
    ⟨whole, fraction, zeros, parts, text⟩
  · refine ⟨_, _, parts.same, ?_⟩
    rw [text, decimal?_mantissa parts.nonempty parts.wholeDigits parts.fractionDigits, add_zero]
  · refine ⟨_, _, parts.same, ?_⟩
    rw [text, decimal?_mantissa_exponent parts.nonempty parts.wholeDigits parts.fractionDigits
      (exponent?_exponentText small zeros)]

/-- Without an exponent, the text of a decimal is a mantissa and nothing else. -/
theorem splitMantissa_render (layout : Layout) {d : Decimal} (unmarked : 'e' ∉ render layout d) :
    (splitMantissa isDecimalDigit (render layout d)).whole ≠ [] ∧
      (splitMantissa isDecimalDigit (render layout d)).rest = [] := by
  rcases render_cases layout d with ⟨whole, fraction, parts, text⟩ |
    ⟨whole, fraction, zeros, parts, text⟩
  · have split := splitMantissa_mantissa parts.wholeDigits parts.fractionDigits (.inl rfl)
    rw [List.append_nil, ← text] at split
    rw [split]
    exact ⟨parts.nonempty, rfl⟩
  · rw [text] at unmarked
    exact absurd (List.mem_append_right _ List.mem_cons_self) unmarked

end Decimal

end ReversePolish
