import Mathlib.Data.List.Basic
import ReversePolish.Proofs.Text.Lines
import ReversePolish.Text.Fragment

/-!
Fragments of a text, and the lines of a text that is read in pieces of bounded size.

The word of a fragment that was cut last is preceded by a blank, or by nothing. A line that is
shorter than the bound is a fragment of its own and was not cut (`cutLine_of_short`), and what is
read of a text behind a line feed does not depend on what stands before it (`piecedLines_append`).
-/

namespace ReversePolish.Text

namespace Fragment

theorem shown_of_whole? {f : Fragment} {s : String} (whole : f.whole? = some s) : f.shown = s := by
  rcases f with ⟨before, text, behind⟩
  unfold whole? at whole
  split at whole
  · rename_i uncut
    rw [Bool.and_eq_true, List.isEmpty_iff, List.isEmpty_iff] at uncut
    obtain ⟨rfl, rfl⟩ := uncut
    cases whole
    simp [shown]
  · cases whole

@[simp] theorem shown_ofText (s : String) : (ofText s).shown = s :=
  shown_of_whole? (whole?_ofText s)

/-- The text before the word that was cut is empty or ends with a blank. -/
theorem firstCut_cases (f : Fragment) :
    f.firstCut.1 = "" ∨
      ∃ (front : List Char) (b : Char) (rest : List Char), isBlank b = true ∧
        f.firstCut.1 = String.ofList (front ++ [b]) ∧
        f.shown = String.ofList (front ++ b :: rest) := by
  rcases f with ⟨before, text, behind⟩
  cases before with
  | cons byte bytes => exact .inl rfl
  | nil =>
      let letters := text.toList.reverse.takeWhile (!isBlank ·)
      have parts : letters ++ text.toList.reverse.dropWhile (!isBlank ·) = text.toList.reverse :=
        List.takeWhile_append_dropWhile
      have start : (firstCut ⟨[], text, behind⟩).1 =
          String.ofList (text.toList.reverse.dropWhile (!isBlank ·)).reverse := rfl
      rw [start]
      have head := List.head?_dropWhile_not (!isBlank ·) text.toList.reverse
      cases front : text.toList.reverse.dropWhile (!isBlank ·) with
      | nil => exact .inl rfl
      | cons b back =>
          rw [front] at parts head
          have blank : isBlank b = true := by simpa using head
          have chars : text.toList = back.reverse ++ b :: letters.reverse := by
            rw [← List.reverse_reverse text.toList, ← parts]
            simp
          refine .inr ⟨back.reverse, b, letters.reverse ++ List.replicate behind.length replacement,
            blank, by rw [List.reverse_cons], ?_⟩
          rw [← String.toList_inj]
          simp [shown, chars]

theorem trim_ofText (s : String) : (ofText s).trim = ofText (Text.trim s) := rfl

theorem isEmpty_ofText (s : String) : (ofText s).isEmpty = s.toList.isEmpty := by
  simp [isEmpty, ofText]

theorem dropReturn_ofText (cs : List Char) :
    (ofText (String.ofList cs)).dropReturn = ofText (String.ofList (Text.dropReturn cs)) := by
  unfold dropReturn Text.dropReturn ofText
  dsimp only
  rw [String.toList_ofList]
  split
  · rename_i reversed
    simp only [reversed]
  · rename_i other
    split
    · rename_i rest reversed
      exact absurd reversed (other rest rfl)
    · rfl

end Fragment

/-! ## Lines in pieces -/

theorem trim_dropReturn (cs : List Char) :
    trim (String.ofList (dropReturn cs)) = trim (String.ofList cs) := by
  unfold trim
  rw [String.toList_ofList, String.toList_ofList, trimBlanks_dropReturn]

/-- The pieces of a line. -/
def cutLine (size : Nat) (l : List Char) : List Fragment :=
  pieces size (l.length + 1) [] l

/-- A line that is short enough is read in one piece. -/
theorem cutLine_of_short {size : Nat} {l : List Char} (short : byteLength l < size) :
    cutLine size l = [.ofText (String.ofList l)] := by
  unfold cutLine pieces
  rw [List.length_nil, Nat.zero_add, if_pos short]
  rfl

/-- The characters that fill a limit are what lies before it. -/
theorem front_of_full (whole : List Char) (c : Char) (rest : List Char) :
    front (byteLength whole) (whole ++ c :: rest) = ⟨whole, []⟩ := by
  induction whole with
  | nil =>
      have beyond : ¬ c.utf8Size ≤ byteLength [] := Nat.not_le.mpr c.utf8Size_pos
      rw [List.nil_append, front, if_neg beyond]
      rfl
  | cons d whole ih =>
      have before : d.utf8Size ≤ byteLength (d :: whole) := Nat.le_add_right _ _
      have left : byteLength (d :: whole) - d.utf8Size = byteLength whole :=
        Nat.add_sub_cancel_left _ _
      rw [List.cons_append, front, if_pos before, left, ih]

/-- A line that does not fit is cut where the bound is reached. -/
theorem cutLine_of_full {whole : List Char} (unreturned : whole.getLast? ≠ some '\r') {c : Char}
    {rest : List Char} (short : byteLength (c :: rest) < byteLength whole) :
    cutLine (byteLength whole) (whole ++ c :: rest) =
      [.ofText (String.ofList whole), .ofText (String.ofList (c :: rest))] := by
  have long : ¬ byteLength (whole ++ c :: rest) < byteLength whole := by
    rw [byteLength_append]
    omega
  have length : (whole ++ c :: rest).length = whole.length + rest.length + 1 := by
    rw [List.length_append, List.length_cons]
    omega
  rw [cutLine, pieces, List.length_nil, Nat.zero_add, if_neg long, Nat.sub_zero, front_of_full]
  dsimp only
  rw [List.drop_left]
  dsimp only
  rw [if_pos List.isEmpty_nil, if_neg unreturned, length, pieces, List.length_nil, Nat.zero_add,
    if_pos short]
  rfl

theorem filter_cutLine_nil {size : Nat} (pos : 0 < size) :
    (cutLine size []).filter (!·.isEmpty) = [] := by
  rw [cutLine_of_short pos]
  rfl

theorem piecedLines_of_split {s : String} {ls : List (List Char)} {last : List Char}
    (split : s.toList.splitOnP (· == '\n') = ls ++ [last]) (size : Nat) :
    piecedLines size s =
      (ls.flatMap (cutLine size)).map Fragment.dropReturn ++
        (cutLine size last).filter (!·.isEmpty) := by
  unfold piecedLines
  rw [split, List.reverse_append, List.reverse_singleton, List.singleton_append]
  dsimp only
  rw [List.reverse_reverse]
  rfl

theorem rawLines_of_split {cs : List Char} {ls : List (List Char)} {last : List Char}
    (split : cs.splitOnP (· == '\n') = ls ++ [last]) :
    rawLines cs = ls ++ if last = [] then [] else [last] := by
  unfold rawLines
  rw [split, List.reverse_append]
  cases last with
  | nil => simp
  | cons c rest => simp

theorem exists_split (s : String) :
    ∃ ls last, s.toList.splitOnP (· == '\n') = ls ++ [last] := by
  rcases List.eq_nil_or_concat' (s.toList.splitOnP (· == '\n')) with none | ⟨ls, last, split⟩
  · exact absurd none (List.splitOnP_ne_nil _ _)
  · exact ⟨ls, last, split⟩

/-- What is read of a text behind a line feed does not depend on what stands before it. -/
theorem piecedLines_append {size : Nat} (pos : 0 < size) (a b : String) :
    piecedLines size (a ++ "\n" ++ b) = piecedLines size (a ++ "\n") ++ piecedLines size b := by
  rcases exists_split b with ⟨ls, last, split⟩
  have ended (rest : List Char) : (a.toList ++ '\n' :: rest).splitOnP (· == '\n') =
      a.toList.splitOnP (· == '\n') ++ rest.splitOnP (· == '\n') :=
    List.splitOnP_append_cons _ _ (by decide)
  have whole : (a ++ "\n" ++ b).toList.splitOnP (· == '\n') =
      (a.toList.splitOnP (· == '\n') ++ ls) ++ [last] := by
    rw [List.append_assoc, ← split, ← ended]
    simp
  have first : (a ++ "\n").toList.splitOnP (· == '\n') =
      a.toList.splitOnP (· == '\n') ++ [[]] := by
    rw [← List.splitOnP_nil, ← ended]
    simp
  rw [piecedLines_of_split whole, piecedLines_of_split first, piecedLines_of_split split,
    filter_cutLine_nil pos, List.flatMap_append, List.map_append, List.append_nil,
    List.append_assoc]

/-- A text whose lines are all short enough is read line by line, up to the blanks around the
lines. -/
theorem map_trim_piecedLines {size : Nat} (pos : 0 < size) {s : String}
    (short : ∀ l ∈ rawLines s.toList, byteLength l < size) :
    (piecedLines size s).map Fragment.trim = (lines s).map (fun l => .ofText (trim l)) := by
  rcases exists_split s with ⟨ls, last, split⟩
  rw [rawLines_of_split split] at short
  have ended : ((ls.flatMap (cutLine size)).map Fragment.dropReturn).map Fragment.trim =
      ls.map (fun l => .ofText (trim (String.ofList (dropReturn l)))) := by
    rw [List.map_map, List.map_flatMap, List.map_eq_flatMap]
    refine List.flatMap_congr fun l member => ?_
    rw [cutLine_of_short (short l (List.mem_append_left _ member)), List.map_singleton,
      Function.comp_apply, Fragment.dropReturn_ofText, Fragment.trim_ofText]
  rw [piecedLines_of_split split, List.map_append, ended, lines, rawLines_of_split split,
    List.map_map, List.map_append]
  refine congrArg _ ?_
  cases last with
  | nil => rw [filter_cutLine_nil pos, if_pos rfl]; rfl
  | cons c rest =>
      have fits := short (c :: rest) (List.mem_append_right _ (by simp))
      rw [cutLine_of_short fits, if_neg (List.cons_ne_nil c rest)]
      simp [Fragment.isEmpty_ofText, Fragment.trim_ofText, trim_dropReturn]

end ReversePolish.Text
