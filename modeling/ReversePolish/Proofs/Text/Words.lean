import ReversePolish.Text.Blank

/-!
Words of a text that is put together from pieces.

A blank between two pieces keeps their words apart, so the words of the whole are those of the
pieces, one piece after the other. `words_append_blank` is this law for one gap, and
`words_intercalate` reads a list of words back from the text in which one blank stands between any
two of them.
-/

namespace ReversePolish.Text

/-- The characters that a word may consist of. -/
def BlankFree (s : String) : Prop :=
  ∀ c ∈ s.toList, isBlank c = false

/-- The text of a single word. -/
structure IsWord (s : String) : Prop where
  ne_empty : s ≠ ""
  blankFree : BlankFree s

theorem isWord_iff {s : String} : IsWord s ↔ s ≠ "" ∧ s.toList.all (!isBlank ·) = true := by
  rw [List.all_eq_true]
  simp only [Bool.not_eq_true']
  exact ⟨fun word => ⟨word.ne_empty, word.blankFree⟩, fun parts => ⟨parts.1, parts.2⟩⟩

instance (s : String) : Decidable (IsWord s) :=
  decidable_of_iff _ isWord_iff.symm

/-! ## Runs of characters -/

theorem runs_append_cons {c : Char} (blank : isBlank c = true) (xs ys : List Char) :
    runs (xs ++ c :: ys) = runs xs ++ runs ys := by
  unfold runs
  rw [List.splitOnP_append_cons xs ys blank, List.filter_append]

theorem runs_cons_blank {c : Char} (blank : isBlank c = true) (cs : List Char) :
    runs (c :: cs) = runs cs := by
  have split := runs_append_cons blank [] cs
  rwa [List.nil_append, runs_nil, List.nil_append] at split

theorem runs_blanks_append {gap : List Char} (blank : ∀ c ∈ gap, isBlank c = true)
    (cs : List Char) : runs (gap ++ cs) = runs cs := by
  induction gap with
  | nil => rfl
  | cons c gap ih =>
      rw [List.cons_append, runs_cons_blank (blank c List.mem_cons_self)]
      exact ih (fun d member => blank d (List.mem_cons_of_mem c member))

/-- A gap of blanks, however long, separates the runs on its two sides. -/
theorem runs_append_gap {gap : List Char} (nonempty : gap ≠ [])
    (blank : ∀ c ∈ gap, isBlank c = true) (xs ys : List Char) :
    runs (xs ++ gap ++ ys) = runs xs ++ runs ys := by
  cases gap with
  | nil => exact absurd rfl nonempty
  | cons c gap =>
      have rest : ∀ d ∈ gap, isBlank d = true :=
        fun d member => blank d (List.mem_cons_of_mem c member)
      rw [List.append_assoc, List.cons_append, runs_append_cons (blank c List.mem_cons_self),
        runs_blanks_append rest]

theorem runs_of_blankFree {cs : List Char} (nonempty : cs ≠ [])
    (free : ∀ c ∈ cs, isBlank c = false) : runs cs = [cs] := by
  unfold runs
  rw [List.splitOnP_eq_singleton free]
  simp [nonempty]

/-! ## Words -/

/-- The words on the two sides of a gap are the words of the whole. -/
theorem words_append_blank {gap : String} (nonempty : gap ≠ "")
    (blank : ∀ c ∈ gap.toList, isBlank c = true) (a b : String) :
    words (a ++ gap ++ b) = words a ++ words b := by
  have gapNonempty : gap.toList ≠ [] := fun empty => nonempty (String.toList_eq_nil_iff.mp empty)
  unfold words
  rw [String.toList_append, String.toList_append, runs_append_gap gapNonempty blank,
    List.map_append]

theorem words_of_isWord {s : String} (word : IsWord s) : words s = [s] := by
  have nonempty : s.toList ≠ [] := fun empty => word.ne_empty (String.toList_eq_nil_iff.mp empty)
  unfold words
  rw [runs_of_blankFree nonempty word.blankFree, List.map_singleton, String.ofList_toList]

/-- Words that are written with one space between any two of them are read back. -/
theorem words_intercalate {ws : List String} (each : ∀ s ∈ ws, IsWord s) :
    words (" ".intercalate ws) = ws := by
  induction ws with
  | nil => simp [words]
  | cons s ws ih =>
      have head : words s = [s] := words_of_isWord (each s List.mem_cons_self)
      have tail : words (" ".intercalate ws) = ws :=
        ih (fun t member => each t (List.mem_cons_of_mem s member))
      cases ws with
      | nil => rw [String.intercalate_singleton, head]
      | cons t ws =>
          have space : ∀ c ∈ " ".toList, isBlank c = true := List.all_eq_true.mp (by decide)
          rw [String.intercalate_cons_cons, words_append_blank (by decide) space, head, tail,
            List.singleton_append]

end ReversePolish.Text
