import Mathlib.Data.List.TakeWhile
import ReversePolish.Token
import ReversePolish.Proofs.Text.Words

/-!
Literals and references to variables as words.

A literal consists of digits, a point and a sign, so it is one word of an expression. A reference to
a variable is one word if its name is one, it is no literal, and it gives its name back. A name with
a blank is cut there (`Token.tokenize_cut_reference`).
-/

namespace ReversePolish

/-! ## Characters of literals -/

namespace Numeral

/-- A mantissa that leaves nothing consists of digits and a point. -/
theorem splitMantissa_chars {isDigit : Char → Bool} {cs : List Char}
    (through : (splitMantissa isDigit cs).rest = []) {c : Char} (member : c ∈ cs) :
    isDigit c = true ∨ c = '.' := by
  rw [← List.takeWhile_append_dropWhile (p := isDigit) (l := cs), List.mem_append] at member
  rcases member with whole | behind
  · exact .inl (List.mem_takeWhile_imp whole)
  · unfold splitMantissa at through
    split at through
    · rename_i rest point
      have nothing : rest.dropWhile isDigit = [] := through
      rw [point, List.mem_cons] at behind
      rcases behind with rfl | fraction
      · exact .inr rfl
      · have digits := List.takeWhile_append_dropWhile (p := isDigit) (l := rest)
        rw [nothing, List.append_nil] at digits
        rw [← digits] at fraction
        exact .inl (List.mem_takeWhile_imp fraction)
    · have nothing : cs.dropWhile isDigit = [] := through
      rw [nothing] at behind
      cases behind

theorem splitSign_chars {cs : List Char} {c : Char} (member : c ∈ cs) :
    c = '+' ∨ c = '-' ∨ c ∈ (splitSign cs).2 := by
  unfold splitSign
  split
  · rcases List.mem_cons.mp member with sign | rest
    · exact .inl sign
    · exact .inr (.inr rest)
  · rcases List.mem_cons.mp member with sign | rest
    · exact .inr (.inl sign)
    · exact .inr (.inr rest)
  · exact .inr (.inr member)

theorem isBlank_of_isDecimalDigit {c : Char} (digit : isDecimalDigit c = true) :
    Text.isBlank c = false := by
  obtain ⟨low, high⟩ := isDecimalDigit_iff.mp digit
  unfold Text.isBlank
  simp only [Bool.or_eq_false_iff, Bool.and_eq_false_iff, decide_eq_false_iff_not,
    beq_eq_false_iff_ne]
  omega

end Numeral

namespace Token

theorem isWord_of_isLiteral {token : String} (literal : isLiteral token = true) :
    Text.IsWord token := by
  unfold isLiteral at literal
  rw [Bool.and_eq_true, Bool.not_eq_true', List.isEmpty_iff] at literal
  constructor
  · rintro rfl
    cases literal.1
  · intro c member
    rcases Numeral.splitSign_chars member with rfl | rfl | body
    · decide
    · decide
    · rcases Numeral.splitMantissa_chars literal.2 body with digit | rfl
      · exact Numeral.isBlank_of_isDecimalDigit digit
      · decide

/-! ## References to variables -/

/-- The word that refers to a variable. -/
def reference (name : String) : String :=
  String.singleton sigil ++ name

theorem toList_reference (name : String) : (reference name).toList = sigil :: name.toList := by
  rw [reference, String.toList_append, String.toList_singleton, List.singleton_append]

theorem isWord_reference {name : String} (word : Text.IsWord name) :
    Text.IsWord (reference name) := by
  constructor
  · intro empty
    have chars := toList_reference name
    rw [empty] at chars
    cases chars
  · intro c member
    rw [toList_reference, List.mem_cons] at member
    rcases member with rfl | inside
    · decide
    · exact word.blankFree c inside

theorem isLiteral_reference (name : String) : isLiteral (reference name) = false := by
  unfold isLiteral
  rw [toList_reference]
  rfl

theorem variableName?_reference {name : String} (word : Text.IsWord name) :
    variableName? (reference name) = some name := by
  unfold variableName?
  rw [toList_reference]
  cases chars : name.toList with
  | nil => exact absurd (String.toList_eq_nil_iff.mp chars) word.ne_empty
  | cons c rest =>
      show some (String.ofList (c :: rest)) = some name
      rw [← chars, String.ofList_toList]

theorem eq_of_variableName?_reference {name other : String}
    (named : variableName? (reference name) = some other) : other = name := by
  unfold variableName? at named
  rw [toList_reference] at named
  cases chars : name.toList with
  | nil =>
      rw [chars] at named
      cases named
  | cons c rest =>
      rw [chars] at named
      cases named
      rw [← chars, String.ofList_toList]

theorem tokenize_reference {name : String} (word : Text.IsWord name) :
    tokenize (reference name) = [reference name] :=
  Text.words_of_isWord (isWord_reference word)

/-- The part of a name in front of its first blank. -/
def firstPart (name : String) : String :=
  String.ofList (name.toList.takeWhile (!Text.isBlank ·))

/-- A name with a blank is cut there, and the sigil stays with the part in front. -/
theorem tokenize_cut_reference {name : String} (cut : ¬Text.BlankFree name) :
    firstPart name ≠ name ∧
      ∃ rest, tokenize (reference name) = reference (firstPart name) :: rest := by
  have found : (name.toList.find? Text.isBlank).isSome = true := by
    rw [List.find?_isSome]
    simpa [Text.BlankFree] using cut
  rcases Option.isSome_iff_exists.mp found with ⟨c, found⟩
  rcases List.find?_eq_some_iff_append.mp found with ⟨blank, before, after, chars, free⟩
  have front : name.toList.takeWhile (!Text.isBlank ·) = before := by
    rw [chars, List.takeWhile_append_of_pos free, List.takeWhile_cons_of_neg (by simp [blank]),
      List.append_nil]
  have word : ∀ d ∈ sigil :: before, Text.isBlank d = false := by
    intro d member
    rcases List.mem_cons.mp member with rfl | inside
    · decide
    · simpa using free d inside
  have first : (reference (firstPart name)).toList = sigil :: before := by
    rw [toList_reference, firstPart, front, String.toList_ofList]
  constructor
  · intro same
    rw [← same, firstPart, front, String.toList_ofList] at chars
    simpa using congrArg List.length chars
  · refine ⟨(Text.runs after).map String.ofList, ?_⟩
    rw [tokenize, Text.words, toList_reference, chars, ← List.cons_append,
      Text.runs_append_cons blank, Text.runs_of_blankFree (List.cons_ne_nil _ _) word,
      List.singleton_append, List.map_cons, ← first, String.ofList_toList]

end Token

end ReversePolish
