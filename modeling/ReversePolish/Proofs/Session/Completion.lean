import Mathlib.Data.List.Basic
import Mathlib.Data.List.TakeDrop
import Mathlib.Data.List.TakeWhile
import ReversePolish.Session.Completion

/-!
Which lines a line is completed to, and in which order.

The line is cut behind its last space or tab, and there is one such cut (`LastWord`). Of the names
that the last word may be completed to, the first occurrences of those that it is the beginning of
are kept. Since a filter keeps the order of first occurrences (`idxOf_lt_of_filter`), and so does
leaving out what occurred before (`pairwise_idxOf_eraseDups`), the completions come in the order in
which the names are first found.
-/

namespace ReversePolish

/-! ## First occurrences -/

section FirstOccurrences

variable {α : Type} [BEq α] [LawfulBEq α]

/-- What is kept of a list has its first occurrences in the order that they have in the list. -/
theorem idxOf_lt_of_filter {p : α → Bool} {l : List α} {x y : α} (keptFirst : p x = true)
    (keptSecond : p y = true) (before : (l.filter p).idxOf x < (l.filter p).idxOf y) :
    l.idxOf x < l.idxOf y := by
  induction l with
  | nil => cases before
  | cons z rest ih =>
      cases kept : p z with
      | true =>
          rw [List.filter_cons_of_pos kept] at before
          rw [List.idxOf_cons, List.idxOf_cons] at before ⊢
          cases first : z == x <;> cases second : z == y <;> rw [first, second] at before
          · exact Nat.succ_lt_succ (ih (Nat.lt_of_succ_lt_succ before))
          · cases before
          · exact Nat.succ_pos _
          · cases before
      | false =>
          rw [List.filter_cons_of_neg (by simp [kept])] at before
          have first : z ≠ x := by
            rintro rfl
            rw [kept] at keptFirst
            cases keptFirst
          have second : z ≠ y := by
            rintro rfl
            rw [kept] at keptSecond
            cases keptSecond
          rw [List.idxOf_cons_ne _ first, List.idxOf_cons_ne _ second]
          exact Nat.succ_lt_succ (ih before)

/-- Leaving out what occurred before keeps the order of first occurrences. -/
theorem pairwise_idxOf_eraseDups (l : List α) :
    l.eraseDups.Pairwise (fun x y => l.idxOf x < l.idxOf y) := by
  match l with
  | [] => exact .nil
  | z :: rest =>
      have others : ∀ {x : α}, x ∈ (rest.filter (!· == z)).eraseDups → (!x == z) = true :=
        fun member => (List.mem_filter.mp (List.mem_eraseDups.mp member)).2
      have later := pairwise_idxOf_eraseDups (rest.filter (!· == z))
      rw [List.eraseDups_cons, List.pairwise_cons]
      refine ⟨fun x member => ?_, later.imp_of_mem fun {x y} first second before => ?_⟩
      · have apart : z ≠ x := by
          rintro rfl
          simpa using others member
        rw [List.idxOf_cons_self, List.idxOf_cons_ne _ apart]
        exact Nat.succ_pos _
      · refine idxOf_lt_of_filter (p := (!· == z)) (others first) (others second) ?_
        rw [List.filter_cons_of_neg (by simp)]
        exact before
termination_by l.length
decreasing_by exact Nat.lt_succ_of_le (List.length_filter_le _ _)

/-- The members of a list that have a property, each once and in the order of their first
occurrences. -/
theorem pairwise_idxOf_filter_eraseDups (p : α → Bool) (l : List α) :
    (l.filter p).eraseDups.Pairwise (fun x y => l.idxOf x < l.idxOf y) := by
  have kept : ∀ {x : α}, x ∈ (l.filter p).eraseDups → p x = true :=
    fun member => (List.mem_filter.mp (List.mem_eraseDups.mp member)).2
  exact (pairwise_idxOf_eraseDups (l.filter p)).imp_of_mem fun first second before =>
    idxOf_lt_of_filter (kept first) (kept second) before

end FirstOccurrences

namespace Session

/-! ## The last word of a line -/

/-- A line is a part that is empty or ends with a space or a tab, and then a word without any. -/
structure LastWord (line head word : String) : Prop where
  whole : line = head ++ word
  unbroken : ∀ ch ∈ word.toList, endsWord ch = false
  broken : ∀ ch, head.toList.getLast? = some ch → endsWord ch = true

theorem LastWord.splitLastWord_eq {line head word : String} (cut : LastWord line head word) :
    splitLastWord line.toList = (head.toList, word.toList) := by
  have chars : line.toList.reverse = word.toList.reverse ++ head.toList.reverse := by
    rw [cut.whole, String.toList_append, List.reverse_append]
  have letters : ∀ ch ∈ word.toList.reverse, (!endsWord ch) = true := by
    intro ch member
    rw [cut.unbroken ch (List.mem_reverse.mp member)]
    rfl
  have stop : head.toList.reverse.takeWhile (!endsWord ·) = [] ∧
      head.toList.reverse.dropWhile (!endsWord ·) = head.toList.reverse := by
    have broken := cut.broken
    rw [← List.head?_reverse] at broken
    cases back : head.toList.reverse with
    | nil => exact ⟨rfl, rfl⟩
    | cons ch rest =>
        have ends : endsWord ch = true := broken ch (by rw [back]; rfl)
        simp [ends]
  unfold splitLastWord
  rw [chars, List.span_eq_takeWhile_dropWhile, List.takeWhile_append_of_pos letters,
    List.dropWhile_append_of_pos letters, stop.1, stop.2]
  simp

theorem exists_lastWord (line : String) : ∃ head word, LastWord line head word := by
  let letters := line.toList.reverse.takeWhile (!endsWord ·)
  let rest := line.toList.reverse.dropWhile (!endsWord ·)
  refine ⟨String.ofList rest.reverse, String.ofList letters.reverse, ?_, ?_, ?_⟩
  · have parts : letters ++ rest = line.toList.reverse := List.takeWhile_append_dropWhile
    rw [← String.ofList_append, ← List.reverse_append, parts, List.reverse_reverse,
      String.ofList_toList]
  · intro ch member
    rw [String.toList_ofList, List.mem_reverse] at member
    simpa using List.mem_takeWhile_imp member
  · intro ch last
    rw [String.toList_ofList, List.getLast?_reverse] at last
    have head := List.head?_dropWhile_not (!endsWord ·) line.toList.reverse
    rw [last] at head
    simpa using head

/-! ## Completions -/

/-- The names among which the completions of a word are found, with repetitions. -/
def nameTable (c : Context) (word : String) : List String :=
  if word.toList.head? = some Token.sigil then
    c.vars.names.map (String.singleton Token.sigil ++ ·)
  else c.operators.names

theorem candidates_eq (c : Context) (word : String) :
    candidates c word.toList =
      ((nameTable c word).filter (fun name => word.toList.isPrefixOf name.toList)).eraseDups := rfl

theorem mem_candidates_iff {c : Context} {word name : String} :
    name ∈ candidates c word.toList ↔ name ∈ nameTable c word ∧ word.toList <+: name.toList := by
  rw [candidates_eq, List.mem_eraseDups, List.mem_filter, List.isPrefixOf_iff_prefix]

theorem pairwise_candidates (c : Context) (word : String) :
    (candidates c word.toList).Pairwise
      (fun a b => (nameTable c word).idxOf a < (nameTable c word).idxOf b) :=
  pairwise_idxOf_filter_eraseDups _ _

theorem nodup_candidates (c : Context) (word : String) : (candidates c word.toList).Nodup :=
  (pairwise_candidates c word).imp fun {a b} before same => by
    rw [same] at before
    exact Nat.lt_irrefl _ before

/-- Completion finds the names that the last word of a line is the beginning of, all of them, each
once, and in the order in which they were first registered or set. -/
theorem complete_last_word {s : Session} {c : Context} (present : s.context? = some c)
    (line : String) :
    (∃ head word, LastWord line head word) ∧
      ∀ head word, LastWord line head word →
        (word = "" → s.complete line = []) ∧
        (word ≠ "" → ∃ names : List String,
          s.complete line = names.map (head ++ ·) ∧ names.Nodup ∧
          (∀ name, name ∈ names ↔ name ∈ nameTable c word ∧ word.toList <+: name.toList) ∧
          names.Pairwise (fun a b => (nameTable c word).idxOf a < (nameTable c word).idxOf b)) ∧
        ∀ completed ∈ s.complete line, line.toList <+: completed.toList := by
  refine ⟨exists_lastWord line, fun head word cut => ?_⟩
  have found : s.complete line =
      if word.toList.isEmpty then [] else (candidates c word.toList).map (head ++ ·) := by
    unfold complete
    rw [cut.splitLastWord_eq, present]
    dsimp only
    rw [String.ofList_toList]
  refine ⟨?_, fun nonempty => ?_, fun completed member => ?_⟩
  · rintro rfl
    exact found
  · have full : word.toList.isEmpty = false := by simpa using nonempty
    rw [full] at found
    exact ⟨candidates c word.toList, found, nodup_candidates c word,
      fun name => mem_candidates_iff, pairwise_candidates c word⟩
  · rw [found] at member
    split at member
    · cases member
    · rcases List.mem_map.mp member with ⟨name, candidate, rfl⟩
      rw [cut.whole, String.toList_append, String.toList_append]
      exact (List.prefix_append_right_inj _).mpr (mem_candidates_iff.mp candidate).2

/-- A name that was registered twice is found once, and an empty word is not completed. -/
theorem complete_last_word_repeated :
    let operators := ["sum", "sub", "sum", "max"].map (Operator.custom · 0 (.run [] .proceed))
    let c : Context :=
      { Context.new {} with operators := (Registry.empty .shadow).insertAll operators }
    let s : Session := ⟨⟨[c], none, []⟩, false, ⟨false⟩, false⟩
    (∃ names : List String, s.complete "1\tsu" = names.map ("1\t" ++ ·) ∧ names.Nodup ∧
      ∀ name, name ∈ names ↔ name ∈ ["sum", "sub", "sum", "max"] ∧ ['s', 'u'] <+: name.toList) ∧
      s.complete "1\tsu" = ["1\tsum", "1\tsub"] ∧ s.complete "1 " = [] := by
  intro operators c s
  have present : s.context? = some c := rfl
  have registered : c.operators.names = ["sum", "sub", "sum", "max"] := rfl
  have word : LastWord "1\tsu" "1\t" "su" :=
    ⟨rfl, by simp [endsWord], fun ch last => by cases last; rfl⟩
  have blank : LastWord "1 " "1 " "" :=
    ⟨rfl, by simp [endsWord], fun ch last => by cases last; rfl⟩
  rcases ((complete_last_word present "1\tsu").2 _ _ word).2.1 (by decide) with
    ⟨names, completed, once, found, -⟩
  refine ⟨⟨names, completed, once, ?_⟩, ?_, ((complete_last_word present "1 ").2 _ _ blank).1 rfl⟩
  · have table : nameTable c "su" = ["sum", "sub", "sum", "max"] := registered
    rwa [table] at found
  · decide +kernel

end Session

end ReversePolish
