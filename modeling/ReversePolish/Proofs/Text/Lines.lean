import Mathlib.Data.List.TakeWhile
import ReversePolish.Proofs.Text.Words
import ReversePolish.Text.Line

/-!
Lines of a text that is put together from lines.

The pieces of a text between line feeds are the pieces that it was put together from, whether or not
a line feed stands behind the last of them. Blanks at the ends of a line, a carriage return among
them, make no difference to its words.
-/

namespace ReversePolish.Text

/-! ## Blanks at the ends -/

theorem runs_append_blanks {gap : List Char} (blank : ∀ c ∈ gap, isBlank c = true)
    (cs : List Char) : runs (cs ++ gap) = runs cs := by
  cases gap with
  | nil => rw [List.append_nil]
  | cons c gap =>
      have split := runs_append_gap (List.cons_ne_nil c gap) blank cs []
      rwa [List.append_nil, runs_nil, List.append_nil] at split

theorem runs_dropWhile_isBlank (cs : List Char) : runs (cs.dropWhile isBlank) = runs cs := by
  have parts : cs.takeWhile isBlank ++ cs.dropWhile isBlank = cs := List.takeWhile_append_dropWhile
  rw [← runs_blanks_append (fun c member => List.mem_takeWhile_imp member), parts]

/-- What is left is a text followed by blanks: those that were dropped from its end. -/
theorem exists_blanks_of_dropWhile_reverse (cs : List Char) :
    ∃ gap : List Char, (∀ c ∈ gap, isBlank c = true) ∧
      cs = (cs.reverse.dropWhile isBlank).reverse ++ gap := by
  refine ⟨(cs.reverse.takeWhile isBlank).reverse, fun c member => ?_, ?_⟩
  · exact List.mem_takeWhile_imp (List.mem_reverse.mp member)
  · rw [← List.reverse_append, List.takeWhile_append_dropWhile, List.reverse_reverse]

theorem runs_trimBlanks (cs : List Char) : runs (trimBlanks cs) = runs cs := by
  obtain ⟨gap, blank, parts⟩ := exists_blanks_of_dropWhile_reverse (cs.dropWhile isBlank)
  rw [trimBlanks, ← runs_append_blanks blank, ← parts, runs_dropWhile_isBlank]

/-- The words of a text do not depend on the blanks around it. -/
theorem words_trim (s : String) : words (trim s) = words s := by
  rw [words, trim, String.toList_ofList, runs_trimBlanks, words]

theorem trimBlanks_append_blank {c : Char} (blank : isBlank c = true) (cs : List Char) :
    trimBlanks (cs ++ [c]) = trimBlanks cs := by
  unfold trimBlanks
  rw [List.dropWhile_append]
  split
  · rename_i none
    rw [List.isEmpty_iff.mp none, List.dropWhile_cons_of_pos blank]
    rfl
  · rw [List.reverse_append]
    simp only [List.reverse_singleton, List.singleton_append]
    rw [List.dropWhile_cons_of_pos blank]

theorem trimBlanks_append_blanks {gap : List Char} (blank : ∀ c ∈ gap, isBlank c = true)
    (cs : List Char) : trimBlanks (cs ++ gap) = trimBlanks cs := by
  induction gap generalizing cs with
  | nil => rw [List.append_nil]
  | cons c gap ih =>
      have rest := ih (fun d member => blank d (List.mem_cons_of_mem c member)) (cs ++ [c])
      rw [List.append_assoc, List.singleton_append] at rest
      rw [rest, trimBlanks_append_blank (blank c List.mem_cons_self)]

/-- A text that neither starts nor ends with a blank has none to lose. -/
theorem trim_of_ends {s : String} (first : ∀ c, s.toList.head? = some c → isBlank c = false)
    (last : ∀ c, s.toList.getLast? = some c → isBlank c = false) : trim s = s := by
  have kept (cs : List Char) (head : ∀ c, cs.head? = some c → isBlank c = false) :
      cs.dropWhile isBlank = cs := by
    cases cs with
    | nil => rfl
    | cons c rest => rw [List.dropWhile_cons_of_neg (by simp [head c rfl])]
  have back := kept s.toList.reverse (by rw [List.head?_reverse]; exact last)
  rw [trim, trimBlanks, kept s.toList first, back, List.reverse_reverse, String.ofList_toList]

theorem isEmpty_trimBlanks (cs : List Char) : (trimBlanks cs).isEmpty = cs.all isBlank := by
  rw [Bool.eq_iff_iff, List.isEmpty_iff, trimBlanks, List.reverse_eq_nil_iff,
    List.dropWhile_eq_nil_iff, List.all_eq_true]
  refine ⟨fun blank c member => ?_, fun blank c member => ?_⟩
  · rw [← List.takeWhile_append_dropWhile (p := isBlank) (l := cs)] at member
    rcases List.mem_append.mp member with before | behind
    · exact List.mem_takeWhile_imp before
    · exact blank c (List.mem_reverse.mpr behind)
  · exact blank c ((List.dropWhile_sublist isBlank).mem (List.mem_reverse.mp member))

theorem trimBlanks_dropReturn (cs : List Char) : trimBlanks (dropReturn cs) = trimBlanks cs := by
  unfold dropReturn
  split
  · rename_i rest reversed
    have parts : cs = rest.reverse ++ ['\r'] := by
      rw [← List.reverse_cons, ← reversed, List.reverse_reverse]
    rw [parts, trimBlanks_append_blank (by decide)]
  · rfl

/-! ## Bytes -/

theorem byteLength_append (xs ys : List Char) :
    byteLength (xs ++ ys) = byteLength xs + byteLength ys := by
  induction xs with
  | nil => exact (Nat.zero_add _).symm
  | cons c xs ih =>
      show c.utf8Size + byteLength (xs ++ ys) = c.utf8Size + byteLength xs + byteLength ys
      omega

theorem byteLength_replicate (n : Nat) (c : Char) :
    byteLength (List.replicate n c) = n * c.utf8Size := by
  induction n with
  | zero => exact (Nat.zero_mul _).symm
  | succ n ih =>
      rw [List.replicate_succ, Nat.succ_mul, ← ih, Nat.add_comm]
      rfl

/-! ## Lines put together -/

variable {ls : List (List Char)}

/-- Pieces that are each ended by a line feed, and what follows the last of them. -/
theorem splitOnP_ended (apart : ∀ l ∈ ls, '\n' ∉ l) {last : List Char} (lastApart : '\n' ∉ last) :
    (ls.flatMap (· ++ ['\n']) ++ last).splitOnP (· == '\n') = ls ++ [last] := by
  have free : ∀ {l : List Char}, '\n' ∉ l → ∀ c ∈ l, (c == '\n') = false := by
    intro l absent c member
    exact beq_eq_false_iff_ne.mpr (fun same => absent (same ▸ member))
  induction ls with
  | nil => exact List.splitOnP_eq_singleton (free lastApart)
  | cons l ls ih =>
      have rest := ih (fun m member => apart m (List.mem_cons_of_mem l member))
      have first := List.splitOnP_eq_singleton (free (apart l List.mem_cons_self))
      rw [List.flatMap_cons, List.append_assoc, List.append_assoc, List.singleton_append,
        List.splitOnP_append_cons _ _ (by decide), first, rest]
      rfl

theorem rawLines_ended (apart : ∀ l ∈ ls, '\n' ∉ l) :
    rawLines (ls.flatMap (· ++ ['\n'])) = ls := by
  have split := splitOnP_ended apart List.not_mem_nil
  rw [List.append_nil] at split
  rw [rawLines, split, List.reverse_append]
  exact List.reverse_reverse ls

/-- The last piece is a line of its own unless it is empty. -/
theorem rawLines_unended (apart : ∀ l ∈ ls, '\n' ∉ l) {last : List Char}
    (lastApart : '\n' ∉ last) :
    rawLines (ls.flatMap (· ++ ['\n']) ++ last) = if last = [] then ls else ls ++ [last] := by
  rw [rawLines, splitOnP_ended apart lastApart, List.reverse_append]
  cases last with
  | nil => exact List.reverse_reverse ls
  | cons c cs =>
      rw [if_neg (List.cons_ne_nil c cs)]
      show ([c :: cs] ++ ls.reverse).reverse = _
      rw [List.reverse_append, List.reverse_reverse]
      rfl

/-- Lines that are all short enough are all read. -/
theorem boundedLines_of_short {limit : Nat} {s : String}
    (short : ∀ l ∈ rawLines s.toList, byteLength l < limit) :
    boundedLines limit s = (lines s, false) := by
  have all : (rawLines s.toList).takeWhile (fun l => byteLength l < limit) = rawLines s.toList :=
    List.takeWhile_eq_self_iff.mpr (fun l member => decide_eq_true (short l member))
  rw [boundedLines, all, lines]
  simp

/-- A line that is too long is noticed. -/
theorem boundedLines_of_long {limit : Nat} {s : String} {l : List Char}
    (member : l ∈ rawLines s.toList) (long : limit ≤ byteLength l) :
    (boundedLines limit s).2 = true := by
  have stopped : (rawLines s.toList).takeWhile (fun l => byteLength l < limit) ≠
      rawLines s.toList := by
    intro all
    have short := List.takeWhile_eq_self_iff.mp all l member
    exact absurd (of_decide_eq_true short) (Nat.not_lt.mpr long)
  have sublist := List.takeWhile_sublist (l := rawLines s.toList)
    (fun l => decide (byteLength l < limit))
  exact decide_eq_true (Nat.lt_of_le_of_ne sublist.length_le
    (fun same => stopped (sublist.eq_of_length same)))

end ReversePolish.Text
