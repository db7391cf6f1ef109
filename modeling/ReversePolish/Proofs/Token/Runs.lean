import ReversePolish.Proofs.Text.Lines
import ReversePolish.Token

/-!
Tokens are the maximal blank-free runs of an expression.

A place of a text is inside a word if a character stands there that is no blank. A span of places is
a run if all its places are inside and neither of the two next to it is (`Span.IsRun`); this does
not mention how words are found. A text is nothing, or a blank with a text behind it, or a word with
a text behind it that does not go on with it (`text_induction`). In each case the runs of the whole
are those of the text behind, moved, and the word in front (`runs_eq_spans`).
-/

namespace ReversePolish.Text

/-! ## Words in front -/

/-- A text does not go on with a word: it is empty, or begins with a blank. -/
def Breaks (cs : List Char) : Prop :=
  ∀ c, cs.head? = some c → isBlank c = true

theorem breaks_dropWhile (cs : List Char) : Breaks (cs.dropWhile (!isBlank ·)) := by
  intro c first
  have head := List.head?_dropWhile_not (!isBlank ·) cs
  rw [first] at head
  simpa using head

/-- What a text may begin with, and a text behind it. -/
@[elab_as_elim]
theorem text_induction {motive : List Char → Prop} (nil : motive [])
    (blank : ∀ (c : Char) (rest : List Char), isBlank c = true → motive rest →
      motive (c :: rest))
    (word : ∀ w rest : List Char, w ≠ [] → (∀ c ∈ w, isBlank c = false) → Breaks rest →
      motive rest → motive (w ++ rest))
    (cs : List Char) : motive cs := by
  -- The words are of any length, so the induction is on the length of the text.
  induction length : cs.length using Nat.strong_induction_on generalizing cs with
  | _ n ih =>
    cases cs with
    | nil => exact nil
    | cons c cs =>
        cases isBlank_c : isBlank c with
        | true =>
            refine blank c cs isBlank_c (ih cs.length ?_ cs rfl)
            rw [← length, List.length_cons]
            exact Nat.lt_succ_self _
        | false =>
            have parts := List.takeWhile_append_dropWhile (p := (!isBlank ·)) (l := c :: cs)
            have front : (c :: cs).takeWhile (!isBlank ·) = c :: cs.takeWhile (!isBlank ·) :=
              List.takeWhile_cons_of_pos (by simp [isBlank_c])
            have free : ∀ d ∈ (c :: cs).takeWhile (!isBlank ·), isBlank d = false := by
              intro d member
              simpa using List.mem_takeWhile_imp member
            have shorter : ((c :: cs).dropWhile (!isBlank ·)).length < n := by
              have lengths := congrArg List.length parts
              rw [front, List.length_append, List.length_cons] at lengths
              omega
            have whole := word _ _ (by rw [front]; exact List.cons_ne_nil _ _) free
              (breaks_dropWhile (c :: cs)) (ih _ shorter _ rfl)
            rwa [parts] at whole

/-- The word in front is the first of the runs. -/
theorem runs_word_append {w rest : List Char} (nonempty : w ≠ [])
    (free : ∀ c ∈ w, isBlank c = false) (breaks : Breaks rest) :
    runs (w ++ rest) = w :: runs rest := by
  cases rest with
  | nil => rw [List.append_nil, runs_of_blankFree nonempty free, runs_nil]
  | cons c rest =>
      have blank : isBlank c = true := breaks c rfl
      rw [runs_append_cons blank, runs_cons_blank blank, runs_of_blankFree nonempty free,
        List.singleton_append]

theorem blankFree_of_mem_runs {cs w : List Char} (member : w ∈ runs cs) :
    ∀ c ∈ w, isBlank c = false := by
  induction cs using text_induction with
  | nil => cases member
  | blank c rest blank ih =>
      rw [runs_cons_blank blank] at member
      exact ih member
  | word v rest nonempty free breaks ih =>
      rw [runs_word_append nonempty free breaks] at member
      rcases List.mem_cons.mp member with rfl | behind
      · exact free
      · exact ih behind

/-- The runs are all that is not blank. -/
theorem flatten_runs (cs : List Char) : (runs cs).flatten = cs.filter (!isBlank ·) := by
  induction cs using text_induction with
  | nil => rfl
  | blank c rest blank ih =>
      rw [runs_cons_blank blank, ih, List.filter_cons_of_neg (by simp [blank])]
  | word w rest nonempty free breaks ih =>
      have kept : w.filter (!isBlank ·) = w :=
        List.filter_eq_self.mpr (fun c member => by simp [free c member])
      rw [runs_word_append nonempty free breaks, List.flatten_cons, ih, List.filter_append, kept]

/-! ## Spans -/

/-- At a place of a text stands a character that is no blank. -/
def Inside (cs : List Char) (i : Nat) : Prop :=
  ∃ c, cs[i]? = some c ∧ isBlank c = false

/-- Consecutive places of a text. -/
structure Span where
  start : Nat
  length : Nat
  deriving DecidableEq, Repr

namespace Span

/-- The characters at the places. -/
def text (cs : List Char) (s : Span) : List Char :=
  (cs.drop s.start).take s.length

/-- There is a place between two spans, the first of which is further to the left. -/
def Precedes (s t : Span) : Prop :=
  s.start + s.length < t.start

/-- All places are inside, and the places next to them are not. -/
structure IsRun (cs : List Char) (s : Span) : Prop where
  nonempty : 0 < s.length
  inside : ∀ i, s.start ≤ i → i < s.start + s.length → Inside cs i
  before : ∀ i, i + 1 = s.start → ¬Inside cs i
  behind : ¬Inside cs (s.start + s.length)

/-- The same places, behind `n` more. -/
def shift (n : Nat) (s : Span) : Span :=
  ⟨n + s.start, s.length⟩

theorem text_shift (xs ys : List Char) (s : Span) :
    (s.shift xs.length).text (xs ++ ys) = s.text ys := by
  unfold text shift
  rw [List.drop_length_add_append]

end Span

theorem inside_append_right (xs ys : List Char) (i : Nat) :
    Inside (xs ++ ys) (xs.length + i) ↔ Inside ys i := by
  unfold Inside
  rw [List.getElem?_append_right (Nat.le_add_right _ _), Nat.add_sub_cancel_left]

theorem inside_append_left {xs : List Char} {i : Nat} (left : i < xs.length) (ys : List Char) :
    Inside (xs ++ ys) i ↔ Inside xs i := by
  unfold Inside
  rw [List.getElem?_append_left left]

theorem inside_of_free {w : List Char} (free : ∀ c ∈ w, isBlank c = false) {i : Nat}
    (left : i < w.length) : Inside w i :=
  ⟨_, List.getElem?_eq_getElem left, free _ (List.getElem_mem left)⟩

theorem Breaks.not_inside {cs : List Char} (breaks : Breaks cs) : ¬Inside cs 0 := by
  rintro ⟨c, first, free⟩
  rw [← List.head?_eq_getElem?] at first
  rw [breaks c first] at free
  cases free

/-- Where a text is cut between two words, a run behind the cut is a run of the whole. -/
theorem Span.isRun_shift {xs ys : List Char}
    (apart : ∀ i, i + 1 = xs.length → Inside (xs ++ ys) i → ¬Inside ys 0) (s : Span) :
    (s.shift xs.length).IsRun (xs ++ ys) ↔ s.IsRun ys := by
  rcases s with ⟨start, length⟩
  constructor
  · rintro ⟨nonempty, inside, before, behind⟩
    dsimp only [shift] at nonempty inside before behind
    refine ⟨nonempty, fun i low high => ?_, fun i next there => ?_, ?_⟩
    · dsimp only at low high
      rw [← inside_append_right xs]
      exact inside _ (by omega) (by omega)
    · dsimp only at next
      rw [← inside_append_right xs] at there
      exact before _ (by omega) there
    · rwa [Nat.add_assoc, inside_append_right] at behind
  · rintro ⟨nonempty, inside, before, behind⟩
    dsimp only at nonempty inside before behind
    refine ⟨nonempty, fun i low high => ?_, fun i next there => ?_, ?_⟩
    · dsimp only [shift] at low high
      have same : i = xs.length + (i - xs.length) := by omega
      rw [same, inside_append_right]
      exact inside _ (by omega) (by omega)
    · dsimp only [shift] at next
      cases start with
      | zero => exact apart i next there (inside 0 (Nat.le_refl 0) (by omega))
      | succ j =>
          have same : i = xs.length + j := by omega
          rw [same, inside_append_right] at there
          exact before j rfl there
    · dsimp only [shift]
      rwa [Nat.add_assoc, inside_append_right]

/-- The runs of a blank with a text behind it. -/
theorem Span.isRun_cons_blank {c : Char} (blank : isBlank c = true) (cs : List Char) (s : Span) :
    s.IsRun (c :: cs) ↔ ∃ t : Span, t.IsRun cs ∧ s = t.shift 1 := by
  have outside : ¬Inside (c :: cs) 0 := Breaks.not_inside (fun d first => by
    rwa [Option.some.inj first] at blank)
  have moved : ∀ t : Span, (t.shift [c].length).IsRun ([c] ++ cs) ↔ t.IsRun cs :=
    isRun_shift (fun i next there => by
      rw [Nat.succ.inj next] at there
      exact absurd there outside)
  constructor
  · intro run
    rcases s with ⟨start, length⟩
    cases start with
    | zero => exact absurd (run.inside 0 (Nat.le_refl 0) (by have := run.nonempty; omega)) outside
    | succ start =>
        have same : (⟨start + 1, length⟩ : Span) = (⟨start, length⟩ : Span).shift 1 := by
          rw [shift, Nat.add_comm 1]
        rw [same] at run ⊢
        exact ⟨_, (moved _).mp run, rfl⟩
  · rintro ⟨t, run, rfl⟩
    exact (moved t).mpr run

/-- The runs of a word with a text behind it. -/
theorem Span.isRun_word_append {w rest : List Char} (nonempty : w ≠ [])
    (free : ∀ c ∈ w, isBlank c = false) (breaks : Breaks rest) (s : Span) :
    s.IsRun (w ++ rest) ↔ s = ⟨0, w.length⟩ ∨ ∃ t : Span, t.IsRun rest ∧ s = t.shift w.length := by
  have outside := breaks.not_inside
  have ends : ¬Inside (w ++ rest) w.length := by
    rwa [← Nat.add_zero w.length, inside_append_right]
  have within (i : Nat) (left : i < w.length) : Inside (w ++ rest) i :=
    (inside_append_left left rest).mpr (inside_of_free free left)
  have moved : ∀ t : Span, (t.shift w.length).IsRun (w ++ rest) ↔ t.IsRun rest :=
    isRun_shift (fun _ _ _ => outside)
  constructor
  · intro run
    rcases s with ⟨start, length⟩
    have some := run.nonempty
    rcases Nat.lt_or_ge start w.length with left | right
    · -- A run that starts in the word starts with it and ends with it.
      have first : start = 0 := by
        by_contra later
        exact run.before (start - 1) (by dsimp only; omega) (within _ (by omega))
      subst first
      have longest : ¬length < w.length := by
        intro short
        refine run.behind ?_
        rw [Nat.zero_add]
        exact within length short
      have shortest : ¬w.length < length := fun long =>
        ends (run.inside w.length (Nat.zero_le _) (by dsimp only; omega))
      have same : length = w.length := by omega
      rw [same]
      exact .inl rfl
    · have same : (⟨start, length⟩ : Span) =
          (⟨start - w.length, length⟩ : Span).shift w.length := by
        rw [shift, Nat.add_sub_cancel' right]
      rw [same] at run ⊢
      exact .inr ⟨_, (moved _).mp run, rfl⟩
  · rintro (rfl | ⟨t, run, rfl⟩)
    · refine ⟨List.length_pos_iff.mpr nonempty, fun i _ high => within i (by simpa using high),
        fun i next => absurd next (Nat.succ_ne_zero i), ?_⟩
      rwa [Nat.zero_add]
    · exact (moved t).mpr run

/-- The runs of a text are the texts of its maximal runs, from left to right. -/
theorem runs_eq_spans (cs : List Char) :
    ∃ spans : List Span, spans.Pairwise Span.Precedes ∧ (∀ s, s ∈ spans ↔ s.IsRun cs) ∧
      runs cs = spans.map (·.text cs) := by
  have moved (n : Nat) {spans : List Span} (order : spans.Pairwise Span.Precedes) :
      (spans.map (Span.shift n)).Pairwise Span.Precedes := by
    refine List.pairwise_map.mpr (order.imp fun {s t} apart => ?_)
    unfold Span.Precedes Span.shift at *
    dsimp only
    omega
  have texts (xs ys : List Char) (spans : List Span) :
      spans.map (·.text ys) = (spans.map (Span.shift xs.length)).map (·.text (xs ++ ys)) := by
    rw [List.map_map]
    exact List.map_congr_left (fun s _ => (Span.text_shift xs ys s).symm)
  induction cs using text_induction with
  | nil =>
      refine ⟨[], .nil, fun s => iff_of_false List.not_mem_nil fun run => ?_, rfl⟩
      rcases run.inside s.start (Nat.le_refl _) (Nat.lt_add_of_pos_right run.nonempty) with
        ⟨c, there, -⟩
      cases there
  | blank c rest blank ih =>
      rcases ih with ⟨spans, order, all, same⟩
      refine ⟨spans.map (Span.shift 1), moved 1 order, fun s => ?_, ?_⟩
      · simp only [Span.isRun_cons_blank blank, List.mem_map, all, eq_comm]
      · rw [runs_cons_blank blank, same]
        exact texts [c] rest spans
  | word w rest nonempty free breaks ih =>
      rcases ih with ⟨spans, order, all, same⟩
      refine ⟨⟨0, w.length⟩ :: spans.map (Span.shift w.length),
        .cons (fun t member => ?_) (moved w.length order), fun s => ?_, ?_⟩
      · rcases List.mem_map.mp member with ⟨s, listed, rfl⟩
        have run := (all s).mp listed
        have later : s.start ≠ 0 := by
          intro first
          refine breaks.not_inside (run.inside 0 (Nat.le_of_eq first) ?_)
          rw [first, Nat.zero_add]
          exact run.nonempty
        show 0 + w.length < w.length + s.start
        omega
      · simp only [Span.isRun_word_append nonempty free breaks, List.mem_cons, List.mem_map, all,
          eq_comm]
      · have front : (⟨0, w.length⟩ : Span).text (w ++ rest) = w := by
          unfold Span.text
          rw [List.drop_zero, List.take_left]
        rw [runs_word_append nonempty free breaks, same, List.map_cons, front, ← texts]

/-! ## Words with gaps between them -/

/-- A text of blanks, or the empty one. -/
def AllBlank (s : String) : Prop :=
  ∀ c ∈ s.toList, isBlank c = true

instance (s : String) : Decidable (AllBlank s) :=
  decidable_of_iff (s.toList.all isBlank = true) List.all_eq_true

/-- Texts with gaps between them; `gap i` is the one behind the text at place `i`. -/
def spaced (gap : Nat → String) : List String → String
  | [] => ""
  | [s] => s
  | s :: next :: rest => s ++ gap 0 ++ spaced (fun i => gap (i + 1)) (next :: rest)

theorem words_spaced {gap : Nat → String} (gaps : ∀ i, gap i ≠ "" ∧ AllBlank (gap i))
    {ws : List String} (each : ∀ s ∈ ws, IsWord s) : words (spaced gap ws) = ws := by
  induction ws generalizing gap with
  | nil => rw [spaced, words, String.toList_empty, runs_nil, List.map_nil]
  | cons s ws ih =>
      have head : words s = [s] := words_of_isWord (each s List.mem_cons_self)
      cases ws with
      | nil => exact head
      | cons next rest =>
          have tail := ih (fun i => gaps (i + 1)) (fun t member => each t (.tail s member))
          rw [spaced, words_append_blank (gaps 0).1 (gaps 0).2, head, tail, List.singleton_append]

theorem words_surrounded {before behind : String} (left : AllBlank before)
    (right : AllBlank behind) (s : String) : words (before ++ s ++ behind) = words s := by
  unfold words
  rw [String.toList_append, String.toList_append, runs_append_blanks right,
    runs_blanks_append left]

end ReversePolish.Text

namespace ReversePolish.Token

theorem isWord_of_mem_tokenize {input token : String} (member : token ∈ tokenize input) :
    Text.IsWord token := by
  rcases List.mem_map.mp member with ⟨w, run, rfl⟩
  refine ⟨fun empty => Text.ne_nil_of_mem_runs run ?_, ?_⟩
  · simpa using congrArg String.toList empty
  · unfold Text.BlankFree
    rw [String.toList_ofList]
    exact Text.blankFree_of_mem_runs run

theorem join_tokenize (input : String) :
    String.join (tokenize input) = String.ofList (input.toList.filter (!Text.isBlank ·)) := by
  rw [← Text.flatten_runs, tokenize, Text.words, ← String.toList_inj]
  simp [List.flatMap_def]

/-- The tokens of an expression are its maximal blank-free runs, from left to right: each is a word,
together they are all that is not blank, and blanks at the ends make no difference. A gap of blanks
divides the tokens on its two sides, and words with gaps between them, and blanks around, are read
back. -/
theorem tokenize_maximal_runs :
    (∀ input : String,
      (∀ token ∈ tokenize input, Text.IsWord token) ∧
      (∃ spans : List Text.Span, spans.Pairwise Text.Span.Precedes ∧
        (∀ s, s ∈ spans ↔ s.IsRun input.toList) ∧
        tokenize input = spans.map (fun s => String.ofList (s.text input.toList))) ∧
      String.join (tokenize input) = String.ofList (input.toList.filter (!Text.isBlank ·)) ∧
      tokenize (Text.trim input) = tokenize input) ∧
    (∀ a gap b : String, gap ≠ "" → Text.AllBlank gap →
      tokenize (a ++ gap ++ b) = tokenize a ++ tokenize b) ∧
    (∀ (gap : Nat → String) (ws : List String) (before behind : String),
      (∀ i, gap i ≠ "" ∧ Text.AllBlank (gap i)) → (∀ s ∈ ws, Text.IsWord s) →
      Text.AllBlank before → Text.AllBlank behind →
        tokenize (before ++ Text.spaced gap ws ++ behind) = ws) := by
  refine ⟨fun input => ⟨fun token => isWord_of_mem_tokenize, ?_, join_tokenize input,
    Text.words_trim input⟩, fun a gap b nonempty blank => ?_,
    fun gap ws before behind gaps each left right => ?_⟩
  · rcases Text.runs_eq_spans input.toList with ⟨spans, order, all, same⟩
    refine ⟨spans, order, all, ?_⟩
    rw [tokenize, Text.words, same, List.map_map]
    rfl
  · exact Text.words_append_blank nonempty blank a b
  · exact (Text.words_surrounded left right _).trans (Text.words_spaced gaps each)

/-- Words with wide and narrow blanks between and around them. -/
theorem tokenize_maximal_runs_wide :
    let gap : Nat → String := fun i => if i = 0 then "\u3000\n" else "\u0085"
    tokenize ("\t" ++ Text.spaced gap ["2", "ß", "+"] ++ "\u2003 ") = ["2", "ß", "+"] ∧
      tokenize ("2" ++ " \u00a0" ++ "ß") = tokenize "2" ++ tokenize "ß" := by
  intro gap
  have gaps : ∀ i, gap i ≠ "" ∧ Text.AllBlank (gap i) := by
    intro i
    show (if i = 0 then _ else _) ≠ "" ∧ Text.AllBlank (if i = 0 then _ else _)
    split <;> decide
  exact ⟨tokenize_maximal_runs.2.2 gap _ _ _ gaps (by decide) (by decide) (by decide),
    tokenize_maximal_runs.2.1 _ _ _ (by decide) (by decide)⟩

end ReversePolish.Token
