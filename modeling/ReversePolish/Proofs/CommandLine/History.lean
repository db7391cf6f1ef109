import Mathlib.Data.List.Basic
import ReversePolish.CommandLine.History

/-!
Histories after any number of lines.

Every entry is followed by a cut to the latest lines. Since a cut takes lines away from the front
only, and never the last one, it does not matter whether the lines are cut after each entry or once
at the end (`History.enterAll_eq_latest`).
-/

namespace ReversePolish.CommandLine.History

/-- Enter lines, one after the other. -/
def enterAll (h : History) (lines : List Text.Fragment) : History :=
  lines.foldl enter h

/-- Lines without those that repeat the line just before them; `last?` is what stands before the
first. -/
def withoutRepeats (last? : Option Text.Fragment) : List Text.Fragment → List Text.Fragment
  | [] => []
  | line :: rest =>
    if last? = some line then withoutRepeats last? rest
    else line :: withoutRepeats (some line) rest

theorem ext_items {h h' : History} (same : h.items = h'.items) : h = h' := by
  cases h
  cases h'
  cases same
  rfl

theorem items_latest (lines : List Text.Fragment) :
    (latest lines).items = lines.drop (lines.length - limit) := by
  rw [latest]

theorem latest_items (h : History) : latest h.items = h := by
  apply ext_items
  rw [items_latest, Nat.sub_eq_zero_of_le h.length_le, List.drop_zero]

/-- A cut before further lines come makes no difference to a cut after them. -/
theorem latest_latest_append (lines more : List Text.Fragment) :
    latest ((latest lines).items ++ more) = latest (lines ++ more) := by
  apply ext_items
  simp only [items_latest]
  generalize limit = n
  -- What the first cut takes away is in front of everything that the second one leaves.
  rw [← List.drop_append_of_le_length (Nat.sub_le _ _), List.drop_drop, List.length_drop,
    List.length_append]
  congr 1
  omega

theorem getLast?_latest_concat (lines : List Text.Fragment) (line : Text.Fragment) :
    (latest (lines ++ [line])).items.getLast? = some line := by
  have kept : (lines ++ [line]).length - limit ≤ lines.length := by
    rw [List.length_append, List.length_singleton, limit]
    omega
  rw [items_latest, List.drop_append_of_le_length kept, List.getLast?_concat]

/-- Entering lines one after the other leaves the latest of all lines, without repeated ones. -/
theorem enterAll_eq_latest (h : History) (lines : List Text.Fragment) :
    h.enterAll lines = latest (h.items ++ withoutRepeats h.items.getLast? lines) := by
  induction lines generalizing h with
  | nil => rw [withoutRepeats, List.append_nil, latest_items]; rfl
  | cons line rest ih =>
      show (h.enter line).enterAll rest = _
      rw [ih, withoutRepeats, enter]
      split
      · rfl
      · rw [getLast?_latest_concat, latest_latest_append, List.append_assoc, List.singleton_append]

end ReversePolish.CommandLine.History
