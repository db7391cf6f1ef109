import Mathlib.Data.List.Basic
import ReversePolish.Proofs.Text.Lines
import ReversePolish.Session

/-!
Expressions in the lines of a text.

An evaluation sees the tokens of its expression, so the blanks around the expression make no
difference. A text in which expressions stand in lines of their own, among blank lines and comments,
is therefore evaluated like the list of its expressions, however its lines end.
-/

namespace ReversePolish

/-- An evaluation depends on the tokens of its expression and on nothing else of it. -/
theorem evaluateAt_of_tokenize_eq {a b : String} (same : Token.tokenize a = Token.tokenize b)
    (n : Nat) (w : World) (id : Nat) (strict : Bool) :
    evaluateAt n w id a strict = evaluateAt n w id b strict := by
  cases n with
  | zero => rfl
  | succ n => simp only [evaluateAt, evaluateWith, same]

namespace Session

theorem call_evaluate_of_tokenize_eq {a b : String} (same : Token.tokenize a = Token.tokenize b)
    (s : Session) (strict : Bool) : s.call (.evaluate a strict) = s.call (.evaluate b strict) := by
  have world : s.world.call home (.evaluate a strict) = s.world.call home (.evaluate b strict) := by
    unfold World.call perform
    split
    · rfl
    · exact evaluateAt_of_tokenize_eq same _ _ _ _
  unfold call
  rw [world]

theorem eval_of_tokenize_eq {a b : String} (same : Token.tokenize a = Token.tokenize b)
    (s : Session) (numbered : Bool) : s.eval a numbered = s.eval b numbered := by
  unfold eval
  rw [call_evaluate_of_tokenize_eq same]

theorem evalAll_of_tokenize_eq (s : Session) {f : String → String} {xs : List String}
    (same : ∀ x ∈ xs, Token.tokenize (f x) = Token.tokenize x) :
    s.evalAll (xs.map f) = s.evalAll xs := by
  unfold evalAll
  rw [List.foldl_map]
  refine List.foldl_ext _ _ _ (fun (before, output) x member => ?_)
  dsimp only
  rw [eval_of_tokenize_eq (same x member)]

/-! ## Lines -/

/-- Whether a line is blank, or a comment. -/
def isFiller (content : String) : Bool :=
  content.toList.all Text.isBlank || Text.startsWithChar '#' (Text.trim content)

theorem batchLine?_eq (line : String) :
    batchLine? line = if isFiller line then none else some (Text.trim line) := by
  have blank : (Text.trim line).toList.isEmpty = line.toList.all Text.isBlank := by
    rw [Text.trim, String.toList_ofList, Text.isEmpty_trimBlanks]
  rw [batchLine?, isFiller, blank]

theorem batchLine?_empty : batchLine? "" = none := by
  rw [batchLine?_eq]
  simp [isFiller]

/-- A line as it stands in a text. -/
structure Line where
  content : String
  /-- Whether a carriage return stands before the line feed. -/
  returned : Bool
  deriving DecidableEq

namespace Line

/-- The characters before the line feed. -/
def raw (l : Line) : List Char :=
  l.content.toList ++ if l.returned then ['\r'] else []

/-- A text that consists of lines. -/
def join (ls : List Line) : String :=
  String.ofList (ls.flatMap (fun l => l.raw ++ ['\n']))

end Line

/-- A text that holds expressions, in lines that can all be read. Among them there may be blank
lines and comments, and the last line feed may be missing. -/
def Holds (text : String) (expressions : List String) : Prop :=
  ∃ ls : List Line,
    (text = Line.join ls ∨ text ++ "\n" = Line.join ls) ∧
      (∀ l ∈ ls, '\n' ∉ l.content.toList ∧ Text.byteLength l.raw < lineLimit) ∧
      (ls.map Line.content).filter (fun content => !isFiller content) = expressions

/-- The expression in a piece of a text between line feeds. -/
def batchPiece? (piece : List Char) : Option String :=
  batchLine? (String.ofList (Text.dropReturn piece))

theorem batchPiece?_raw (l : Line) : batchPiece? l.raw = batchLine? l.content := by
  have trimmed : Text.trim (String.ofList (Text.dropReturn l.raw)) = Text.trim l.content := by
    unfold Text.trim
    rw [String.toList_ofList, Text.trimBlanks_dropReturn, Line.raw]
    cases l.returned with
    | false => rw [if_neg (by decide), List.append_nil]
    | true => rw [if_pos rfl, Text.trimBlanks_append_blank (by decide)]
  unfold batchPiece? batchLine?
  rw [trimmed]

theorem filterMap_batchLine? (contents : List String) :
    contents.filterMap batchLine? =
      (contents.filter (fun content => !isFiller content)).map Text.trim := by
  induction contents with
  | nil => rfl
  | cons content contents ih =>
      rw [List.filterMap_cons, batchLine?_eq, List.filter_cons]
      cases isFiller content with
      | true => exact ih
      | false => exact congrArg (Text.trim content :: ·) ih

theorem Line.not_mem_raw {l : Line} (apart : '\n' ∉ l.content.toList) : '\n' ∉ l.raw := by
  intro member
  rcases List.mem_append.mp member with inside | behind
  · exact apart inside
  · split at behind
    · exact absurd behind (by decide)
    · exact absurd behind List.not_mem_nil

theorem Line.toList_join (ls : List Line) :
    (join ls).toList = (ls.map raw).flatMap (· ++ ['\n']) := by
  rw [join, String.toList_ofList, List.flatMap_map]

/-- The lines of a text that consists of lines are these; an empty one may be missing at the end if
the last line feed is. -/
theorem rawLines_of_join {text : String} {ls : List Line}
    (joined : text = Line.join ls ∨ text ++ "\n" = Line.join ls)
    (apart : ∀ l ∈ ls, '\n' ∉ l.content.toList) :
    ∃ rest : List (List Char), (rest = [] ∨ rest = [[]]) ∧
      Text.rawLines text.toList ++ rest = ls.map Line.raw := by
  have free : ∀ r ∈ ls.map Line.raw, '\n' ∉ r := by
    intro r member
    obtain ⟨l, listed, rfl⟩ := List.mem_map.mp member
    exact Line.not_mem_raw (apart l listed)
  rcases joined with rfl | joined
  · refine ⟨[], .inl rfl, ?_⟩
    rw [List.append_nil, Line.toList_join, Text.rawLines_ended free]
  · have characters : text.toList ++ ['\n'] = (ls.map Line.raw).flatMap (· ++ ['\n']) := by
      rw [← Line.toList_join, ← joined, String.toList_append]
      rfl
    generalize ls.map Line.raw = raws at free characters
    rcases List.eq_nil_or_concat' raws with rfl | ⟨init, last, rfl⟩
    · cases List.append_eq_nil_iff.mp characters |>.2
    · rw [List.flatMap_append, List.flatMap_singleton, ← List.append_assoc] at characters
      have text_eq := List.append_cancel_right characters
      have initFree : ∀ r ∈ init, '\n' ∉ r :=
        fun r member => free r (List.mem_append_left _ member)
      have lastFree : '\n' ∉ last := free last (List.mem_append_right _ List.mem_cons_self)
      rw [text_eq, Text.rawLines_unended initFree lastFree]
      split
      · rename_i empty
        exact ⟨[[]], .inr rfl, by rw [empty]⟩
      · exact ⟨[], .inl rfl, List.append_nil _⟩

/-- A text is evaluated like the list of the expressions that it holds. -/
theorem evalLines_of_holds {text : String} {expressions : List String}
    (holds : Holds text expressions) (s : Session) :
    s.evalLines text = ((s.evalAll expressions).1, (s.evalAll expressions).2, true) := by
  obtain ⟨ls, joined, fits, rfl⟩ := holds
  obtain ⟨rest, ending, raws⟩ := rawLines_of_join joined (fun l member => (fits l member).1)
  have short : ∀ r ∈ Text.rawLines text.toList, Text.byteLength r < lineLimit := by
    intro r member
    have listed : r ∈ ls.map Line.raw := raws ▸ List.mem_append_left rest member
    obtain ⟨l, here, rfl⟩ := List.mem_map.mp listed
    exact (fits l here).2
  have found : (Text.lines text).filterMap batchLine? =
      (ls.map Line.content).filterMap batchLine? := by
    have none : rest.filterMap batchPiece? = [] := by
      rcases ending with rfl | rfl
      · rfl
      · exact List.filterMap_cons_none batchLine?_empty
    calc (Text.lines text).filterMap batchLine?
        = (Text.rawLines text.toList).filterMap batchPiece? := by
          rw [Text.lines, List.filterMap_map]
          exact List.filterMap_congr (fun r _ => by rw [Function.comp_apply, batchPiece?])
      _ = (Text.rawLines text.toList ++ rest).filterMap batchPiece? := by
          rw [List.filterMap_append, none, List.append_nil]
      _ = ls.filterMap (batchPiece? ∘ Line.raw) := by rw [raws, List.filterMap_map]
      _ = ls.filterMap (batchLine? ∘ Line.content) :=
          List.filterMap_congr (fun l _ => by simp only [Function.comp_apply, batchPiece?_raw])
      _ = (ls.map Line.content).filterMap batchLine? := List.filterMap_map.symm
  unfold evalLines
  rw [Text.boundedLines_of_short short]
  dsimp only
  rw [found, filterMap_batchLine?, evalAll_of_tokenize_eq s (fun x _ => Text.words_trim x)]
  simp

end Session

end ReversePolish
