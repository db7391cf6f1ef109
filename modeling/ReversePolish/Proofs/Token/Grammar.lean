import Mathlib.Computability.RegularExpressions
import Mathlib.Tactic.IntervalCases
import ReversePolish.Token

/-!
Literals are a regular language.

The grammar of literals is a regular expression (`Token.Grammar.literal`). A reader that goes
through a text once, from left to right, can tell the literals if it remembers whether it is still
at the start, whether it met a digit and whether it met a point (`Token.Scan`). In each of its
states the texts that it would still accept are given by a regular expression as well, in which what
has been read is crossed out of the grammar (`Scan.ahead`). One step of the reader is the derivative
of that expression by a character (`Scan.matches_deriv_ahead_step`), so a whole run accepts what the
expression of its first state matches (`Scan.accepts_iff`), and that is the grammar.

The reader needs no characters: the bytes of a text will do, each taken for the character with its
code. A character of several bytes starts with a byte that no literal contains
(`Scan.accepts_bytes`).
-/

namespace ReversePolish

/-! ## Bytes of characters -/

namespace Text

theorem utf8EncodeChar_ofUInt8 {b : UInt8} (narrow : b.toNat < 128) :
    String.utf8EncodeChar (Char.ofUInt8 b) = [b] := by
  have code : (Char.ofUInt8 b).val.toNat = b.toNat := rfl
  rw [String.utf8EncodeChar, code, if_pos (Nat.le_of_lt_succ narrow), UInt8.ofNat_toNat]

theorem map_utf8EncodeChar {c : Char} (narrow : c.toNat < 128) :
    (String.utf8EncodeChar c).map Char.ofUInt8 = [c] := by
  have byte : c.toUInt8.toNat = c.toNat := by
    show c.toNat % 256 = c.toNat
    omega
  have same : Char.ofUInt8 c.toUInt8 = c := Char.toNat_inj.mp byte
  rw [← same, utf8EncodeChar_ofUInt8 (byte ▸ narrow)]
  rfl

/-- Where a character has several bytes, already the first of them tells. -/
theorem exists_utf8EncodeChar {c : Char} (wide : 128 ≤ c.toNat) :
    ∃ b bs, String.utf8EncodeChar c = b :: bs ∧ 128 ≤ b.toNat := by
  have several : ¬c.val.toNat ≤ 127 := Nat.not_le_of_lt wide
  rw [String.utf8EncodeChar, if_neg several]
  split
  · refine ⟨_, _, rfl, ?_⟩
    rw [UInt8.toNat_ofNat']
    omega
  · split
    · refine ⟨_, _, rfl, ?_⟩
      rw [UInt8.toNat_ofNat']
      omega
    · refine ⟨_, _, rfl, ?_⟩
      rw [UInt8.toNat_ofNat']
      omega

theorem data_toUTF8 (s : String) :
    s.toUTF8.data.toList = s.toList.flatMap String.utf8EncodeChar := by
  have encoded := String.toByteArray_ofList (l := s.toList)
  rw [String.ofList_toList] at encoded
  rw [String.toUTF8_eq_toByteArray, encoded, List.utf8Encode, List.data_toByteArray]

end Text

/-! ## Mantissas from their first character -/

namespace Numeral

variable {isDigit : Char → Bool} {c : Char}

theorem splitMantissa_cons_digit (digit : isDigit c = true) (cs : List Char) :
    splitMantissa isDigit (c :: cs) =
      { splitMantissa isDigit cs with whole := c :: (splitMantissa isDigit cs).whole } := by
  rw [splitMantissa, splitMantissa, List.takeWhile_cons_of_pos digit,
    List.dropWhile_cons_of_pos digit]
  split <;> rfl

theorem splitMantissa_cons_other (digit : isDigit c = false) (point : c ≠ '.')
    (cs : List Char) : splitMantissa isDigit (c :: cs) = ⟨[], [], c :: cs⟩ := by
  have other : ¬isDigit c = true := by simp [digit]
  rw [splitMantissa, List.takeWhile_cons_of_neg other, List.dropWhile_cons_of_neg other]
  split
  · rename_i first
    exact absurd (List.cons.inj first).1 point
  · rfl

end Numeral

namespace Token

open Numeral RegularExpression

/-! ## The grammar -/

namespace Grammar

/-- One of some characters. -/
def oneOf : List Char → RegularExpression Char
  | [] => 0
  | c :: cs => char c + oneOf cs

def sign : RegularExpression Char :=
  oneOf ['+', '-']

def digit : RegularExpression Char :=
  oneOf ['0', '1', '2', '3', '4', '5', '6', '7', '8', '9']

/-- Any number of digits. -/
def digits : RegularExpression Char :=
  digit.star

/-- A sign or none, one or more digits, and possibly a point with any number of digits behind it. -/
def literal : RegularExpression Char :=
  (1 + sign) * (digit * digits) * (1 + char '.' * digits)

theorem cons_mem_matches (P : RegularExpression Char) (c : Char) (cs : List Char) :
    c :: cs ∈ P.matches' ↔ cs ∈ (P.deriv c).matches' := by
  rw [← rmatch_iff_matches', ← rmatch_iff_matches', rmatch]

theorem matches_deriv_optional (P : RegularExpression Char) (c : Char) :
    ((1 + P).deriv c).matches' = (P.deriv c).matches' :=
  zero_add _

theorem matches_deriv_mul (P Q : RegularExpression Char) (c : Char) :
    ((P * Q).deriv c).matches' =
      (P.deriv c).matches' * Q.matches' + if P.matchEpsilon then (Q.deriv c).matches' else 0 := by
  rw [← comp_def, RegularExpression.deriv]
  split
  · rfl
  · exact (add_zero _).symm

theorem matches_deriv_oneOf (cs : List Char) (c : Char) :
    ((oneOf cs).deriv c).matches' = if c ∈ cs then 1 else 0 := by
  induction cs with
  | nil => rfl
  | cons d cs ih =>
      rw [oneOf, RegularExpression.deriv_add, matches'_add, ih]
      by_cases first : d = c
      · subst first
        rw [deriv_char_self, if_pos List.mem_cons_self]
        split
        · exact add_idem 1
        · exact add_zero 1
      · rw [deriv_char_of_ne first, matches'_zero, zero_add]
        simp [Ne.symm first]

theorem mem_digits_iff (c : Char) :
    c ∈ ['0', '1', '2', '3', '4', '5', '6', '7', '8', '9'] ↔ isDecimalDigit c = true := by
  constructor
  · intro member
    exact List.all_eq_true.mp (by decide) c member
  · intro range
    obtain ⟨low, high⟩ := isDecimalDigit_iff.mp range
    rw [← Char.ofNat_toNat c]
    interval_cases c.toNat <;> decide

theorem matches_deriv_digits (c : Char) :
    (digits.deriv c).matches' = if isDecimalDigit c then digits.matches' else 0 := by
  rw [digits, RegularExpression.deriv_star, matches'_mul, digit, matches_deriv_oneOf]
  simp only [mem_digits_iff]
  split
  · exact one_mul _
  · exact zero_mul _

end Grammar

/-! ## Reading from left to right -/

/-- What a reader of a literal remembers. -/
structure Scan where
  /-- Nothing has been read. -/
  fresh : Bool
  /-- A digit has been read. -/
  seenDigit : Bool
  /-- A point has been read. -/
  seenPoint : Bool
  deriving DecidableEq, Repr

namespace Scan

def start : Scan :=
  ⟨true, false, false⟩

/-- A sign must come first, and a point behind a digit and no other point. -/
def step? (s : Scan) (c : Char) : Option Scan :=
  if c = '+' ∨ c = '-' then
    if s.fresh then some { s with fresh := false } else none
  else if c = '.' then
    if s.seenDigit && !s.seenPoint then some { s with fresh := false, seenPoint := true } else none
  else if isDecimalDigit c then some { s with fresh := false, seenDigit := true }
  else none

/-- Whether a text can be read to its end, and a digit is met. -/
def accepts (s : Scan) : List Char → Bool
  | [] => s.seenDigit
  | c :: rest => (s.step? c).any (·.accepts rest)

section Ahead

open Grammar

/-- What may still come of the sign. -/
def signAhead (fresh : Bool) : RegularExpression Char :=
  if fresh then 1 + sign else 1

/-- What may still come of the digits in front of the point. -/
def wholeAhead (seenDigit : Bool) : RegularExpression Char :=
  if seenDigit then digits else digit * digits

/-- What may still come of the point and the digits behind it. -/
def behindAhead (seenPoint : Bool) : RegularExpression Char :=
  if seenPoint then 1 else 1 + char '.' * digits

/-- What may still come. Behind the point the digits in front of it stand for those behind it, so
one expression serves all states. -/
def ahead (s : Scan) : RegularExpression Char :=
  signAhead s.fresh * wholeAhead s.seenDigit * behindAhead s.seenPoint

theorem ahead_start : start.ahead = literal := rfl

theorem matchEpsilon_ahead (s : Scan) : s.ahead.matchEpsilon = s.seenDigit := by
  rcases s with ⟨_ | _, _ | _, _ | _⟩ <;> rfl

theorem matches_deriv_signAhead (fresh : Bool) (c : Char) :
    ((signAhead fresh).deriv c).matches' = if fresh ∧ (c = '+' ∨ c = '-') then 1 else 0 := by
  cases fresh with
  | false => simp [signAhead]
  | true =>
      rw [signAhead, if_pos rfl, matches_deriv_optional, sign, matches_deriv_oneOf]
      simp

theorem matches_deriv_wholeAhead (seenDigit : Bool) (c : Char) :
    ((wholeAhead seenDigit).deriv c).matches' =
      if isDecimalDigit c then digits.matches' else 0 := by
  -- The first digit is followed by what may follow any digit.
  cases seenDigit with
  | false => exact matches_deriv_digits c
  | true => exact matches_deriv_digits c

theorem matches_deriv_behindAhead (seenPoint : Bool) (c : Char) :
    ((behindAhead seenPoint).deriv c).matches' =
      if seenPoint = false ∧ c = '.' then digits.matches' else 0 := by
  cases seenPoint with
  | true => simp [behindAhead]
  | false =>
      rw [behindAhead, if_neg Bool.false_ne_true, matches_deriv_optional, matches_deriv_mul]
      by_cases point : c = '.'
      · subst point
        simp [matchEpsilon]
      · simp [matchEpsilon, Ne.symm point, point]

/-- The sign may be missing, and so may further digits if there was one. -/
theorem matches_deriv_ahead (s : Scan) (c : Char) :
    (s.ahead.deriv c).matches' =
      (((signAhead s.fresh).deriv c).matches' * (wholeAhead s.seenDigit).matches' +
          ((wholeAhead s.seenDigit).deriv c).matches') * (behindAhead s.seenPoint).matches' +
        if s.seenDigit then ((behindAhead s.seenPoint).deriv c).matches' else 0 := by
  have sign : (signAhead s.fresh).matchEpsilon = true := by
    cases s.fresh <;> rfl
  have front : (signAhead s.fresh * wholeAhead s.seenDigit).matchEpsilon = s.seenDigit := by
    cases s.fresh <;> cases s.seenDigit <;> rfl
  rw [ahead, matches_deriv_mul, matches_deriv_mul, front, if_pos sign]

theorem matches_ahead_begun (seenDigit seenPoint : Bool) :
    (ahead ⟨false, seenDigit, seenPoint⟩).matches' =
      (wholeAhead seenDigit).matches' * (behindAhead seenPoint).matches' :=
  congrArg (· * _) (one_mul _)

/-- A step of the reader takes its character off what may still come. -/
theorem matches_deriv_ahead_step (s : Scan) (c : Char) :
    (s.ahead.deriv c).matches' = (s.step? c).elim 0 (·.ahead.matches') := by
  rw [matches_deriv_ahead, matches_deriv_signAhead, matches_deriv_wholeAhead,
    matches_deriv_behindAhead, step?]
  rcases s with ⟨fresh, seenDigit, seenPoint⟩
  -- No character is of two kinds, so of the three summands at most one is left in each case.
  by_cases sign : c = '+' ∨ c = '-'
  · have digit : isDecimalDigit c = false := by rcases sign with rfl | rfl <;> rfl
    have point : c ≠ '.' := by rcases sign with rfl | rfl <;> decide
    cases fresh <;> simp [sign, digit, point, matches_ahead_begun]
  by_cases point : c = '.'
  · subst point
    have digit : isDecimalDigit '.' = false := rfl
    cases seenDigit <;> cases seenPoint <;>
      simp [digit, matches_ahead_begun, wholeAhead, behindAhead]
  by_cases digit : isDecimalDigit c
  · simp [sign, point, digit, matches_ahead_begun, wholeAhead]
  · simp [sign, point, digit]

/-- The reader accepts exactly what may still come. -/
theorem accepts_iff (s : Scan) (cs : List Char) :
    s.accepts cs = true ↔ cs ∈ s.ahead.matches' := by
  induction cs generalizing s with
  | nil => rw [← rmatch_iff_matches', rmatch, matchEpsilon_ahead, accepts]
  | cons c cs ih =>
      rw [cons_mem_matches, matches_deriv_ahead_step, accepts]
      cases s.step? c with
      | none => exact iff_of_false Bool.false_ne_true (Language.notMem_zero cs)
      | some t => exact ih t

end Ahead

/-! ## The reader tells the literals -/

theorem step?_of_digit (s : Scan) {c : Char} (digit : isDecimalDigit c = true) :
    s.step? c = some { s with fresh := false, seenDigit := true } := by
  have sign : ¬(c = '+' ∨ c = '-') := by
    rintro (rfl | rfl) <;> cases digit
  have point : c ≠ '.' := by
    rintro rfl
    cases digit
  rw [step?, if_neg sign, if_neg point, if_pos digit]

theorem step?_of_other {s : Scan} (begun : s.fresh = false) {c : Char}
    (digit : isDecimalDigit c = false) (point : c ≠ '.') : s.step? c = none := by
  simp [step?, begun, digit, point]

theorem accepts_fraction (cs : List Char) :
    (⟨false, true, true⟩ : Scan).accepts cs = (cs.dropWhile isDecimalDigit).isEmpty := by
  induction cs with
  | nil => rfl
  | cons c cs ih =>
      cases digit : isDecimalDigit c with
      | true =>
          rw [accepts, step?_of_digit _ digit, List.dropWhile_cons_of_pos digit]
          exact ih
      | false =>
          rw [List.dropWhile_cons_of_neg (by simp [digit]), accepts]
          by_cases point : c = '.'
          · subst point
            rfl
          · rw [step?_of_other rfl digit point]
            rfl

theorem accepts_whole (cs : List Char) :
    (⟨false, true, false⟩ : Scan).accepts cs =
      (splitMantissa isDecimalDigit cs).rest.isEmpty := by
  induction cs with
  | nil => rfl
  | cons c cs ih =>
      cases digit : isDecimalDigit c with
      | true =>
          rw [accepts, step?_of_digit _ digit, splitMantissa_cons_digit digit]
          exact ih
      | false =>
          by_cases point : c = '.'
          · subst point
            exact accepts_fraction cs
          · rw [accepts, step?_of_other rfl digit point, splitMantissa_cons_other digit point]
            rfl

theorem accepts_unsigned (cs : List Char) :
    (⟨false, false, false⟩ : Scan).accepts cs =
      (!(splitMantissa isDecimalDigit cs).whole.isEmpty &&
        (splitMantissa isDecimalDigit cs).rest.isEmpty) := by
  cases cs with
  | nil => rfl
  | cons c cs =>
      cases digit : isDecimalDigit c with
      | true =>
          rw [accepts, step?_of_digit _ digit, splitMantissa_cons_digit digit]
          exact accepts_whole cs
      | false =>
          by_cases point : c = '.'
          · subst point
            rfl
          · rw [accepts, step?_of_other rfl digit point, splitMantissa_cons_other digit point]
            rfl

theorem accepts_start (cs : List Char) :
    start.accepts cs = (⟨false, false, false⟩ : Scan).accepts (splitSign cs).2 := by
  unfold splitSign
  split
  · rfl
  · rfl
  · rename_i plus minus
    cases cs with
    | nil => rfl
    | cons c cs =>
        have unsigned : ¬(c = '+' ∨ c = '-') := by
          rintro (rfl | rfl)
          · exact plus cs rfl
          · exact minus cs rfl
        have step : start.step? c = (⟨false, false, false⟩ : Scan).step? c := by
          rw [step?, if_neg unsigned, step?, if_neg unsigned]
          rfl
        rw [accepts, accepts, step]

theorem isLiteral_eq_accepts (token : String) :
    isLiteral token = start.accepts token.toList := by
  rw [accepts_start, accepts_unsigned, isLiteral]

/-! ## Reading bytes -/

theorem step?_of_wide (s : Scan) {c : Char} (wide : 128 ≤ c.toNat) : s.step? c = none := by
  have other {d : Char} (narrow : d.toNat < 128) : c ≠ d := by
    rintro rfl
    omega
  have digit : ¬isDecimalDigit c = true := by
    intro digit
    have high := (isDecimalDigit_iff.mp digit).2
    omega
  have sign : ¬(c = '+' ∨ c = '-') := not_or.mpr ⟨other (by decide), other (by decide)⟩
  rw [step?, if_neg sign, if_neg (other (by decide)), if_neg digit]

/-- The bytes of a text are read as the text is. -/
theorem accepts_bytes (s : Scan) (cs : List Char) :
    s.accepts ((cs.flatMap String.utf8EncodeChar).map Char.ofUInt8) = s.accepts cs := by
  induction cs generalizing s with
  | nil => rfl
  | cons c cs ih =>
      rw [List.flatMap_cons, List.map_append]
      rcases Nat.lt_or_ge c.toNat 128 with narrow | wide
      · rw [Text.map_utf8EncodeChar narrow, List.singleton_append, accepts, accepts]
        cases s.step? c with
        | none => rfl
        | some t => exact ih t
      · obtain ⟨b, bs, bytes, high⟩ := Text.exists_utf8EncodeChar wide
        have refused : s.step? (Char.ofUInt8 b) = none := step?_of_wide s high
        rw [bytes, List.map_cons, List.cons_append, accepts, accepts, refused,
          step?_of_wide s wide]
        rfl

theorem narrow_of_accepts {s : Scan} {cs : List Char} (accepted : s.accepts cs = true) :
    ∀ c ∈ cs, c.toNat < 128 := by
  induction cs generalizing s with
  | nil => nofun
  | cons c cs ih =>
      rw [accepts, Option.any_eq_true] at accepted
      obtain ⟨t, step, rest⟩ := accepted
      intro d member
      rcases List.mem_cons.mp member with rfl | behind
      · by_contra wide
        rw [step?_of_wide s (Nat.le_of_not_lt wide)] at step
        cases step
      · exact ih rest d behind

end Scan

/-- Whether bytes are those of a literal, told in one pass. -/
def isLiteralBytes (bytes : List UInt8) : Bool :=
  Scan.start.accepts (bytes.map Char.ofUInt8)

/-- Accepted bytes are the text in which each of them is a character. -/
theorem data_toUTF8_of_isLiteralBytes {bytes : List UInt8}
    (accepted : isLiteralBytes bytes = true) :
    (String.ofList (bytes.map Char.ofUInt8)).toUTF8.data.toList = bytes := by
  have narrow := Scan.narrow_of_accepts accepted
  rw [Text.data_toUTF8, String.toList_ofList, List.flatMap_map]
  calc bytes.flatMap (fun b => String.utf8EncodeChar (Char.ofUInt8 b))
      = bytes.flatMap (fun b => [b]) := by
        apply List.flatMap_congr
        intro b member
        exact Text.utf8EncodeChar_ofUInt8 (narrow _ (List.mem_map_of_mem member))
    _ = bytes := List.flatMap_singleton' bytes

/-- The literals are exactly the texts that the grammar matches: a sign or none, one or more digits,
possibly a point with any number of digits behind it, and nothing else. One pass over the bytes
tells them, and of all sequences of bytes, texts or not, it accepts those of literals only. -/
theorem isLiteral_iff_grammar :
    (∀ token : String, isLiteral token = true ↔ token.toList ∈ Grammar.literal.matches') ∧
      ∀ bytes : List UInt8, isLiteralBytes bytes = true ↔
        ∃ token : String, isLiteral token = true ∧ token.toUTF8.data.toList = bytes := by
  refine ⟨fun token => ?_, fun bytes => ⟨fun accepted => ?_, ?_⟩⟩
  · rw [Scan.isLiteral_eq_accepts, Scan.accepts_iff, Scan.ahead_start]
  · refine ⟨String.ofList (bytes.map Char.ofUInt8), ?_, data_toUTF8_of_isLiteralBytes accepted⟩
    rwa [Scan.isLiteral_eq_accepts, String.toList_ofList]
  · rintro ⟨token, literal, rfl⟩
    rwa [isLiteralBytes, Text.data_toUTF8, Scan.accepts_bytes, ← Scan.isLiteral_eq_accepts]

example : "-3.14".toList ∈ Grammar.literal.matches' ∧ "3.".toList ∈ Grammar.literal.matches' ∧
    ".5".toList ∉ Grammar.literal.matches' ∧ "3.1.4".toList ∉ Grammar.literal.matches' := by
  decide

end Token

end ReversePolish
