/-!
Blank characters and the words between them.

Every part of the calculator that cuts text at white space (expressions, commands, batch lines,
definitions) goes through this module, so that all of them mean the same characters by "blank".
A word is a maximal run of characters that are not blank.
-/

namespace ReversePolish.Text

/-- White space of the whole character set: the ASCII controls from tab to carriage return, the
space, and the separators beyond ASCII. -/
def isBlank (c : Char) : Bool :=
  let n := c.toNat
  (0x9 ≤ n && n ≤ 0xd) || n == 0x20 || n == 0x85 || n == 0xa0 || n == 0x1680 ||
    (0x2000 ≤ n && n ≤ 0x200a) || n == 0x2028 || n == 0x2029 || n == 0x202f ||
    n == 0x205f || n == 0x3000

/-- The maximal blank-free runs of a text, from left to right. -/
def runs (cs : List Char) : List (List Char) :=
  (cs.splitOnP isBlank).filter (fun w => !w.isEmpty)

/-- The words of a text, from left to right. -/
def words (s : String) : List String :=
  (runs s.toList).map String.ofList

/-- A text without the blanks at its two ends. -/
def trimBlanks (cs : List Char) : List Char :=
  ((cs.dropWhile isBlank).reverse.dropWhile isBlank).reverse

/-- A text without the blanks at its two ends. -/
def trim (s : String) : String :=
  String.ofList (trimBlanks s.toList)

/-- A text without one leading occurrence of `c`, if it starts with it. -/
def dropLeading (c : Char) (s : String) : String :=
  match s.toList with
  | d :: rest => if d = c then String.ofList rest else s
  | [] => s

/-- Whether a text starts with the character `c`. -/
def startsWithChar (c : Char) (s : String) : Bool :=
  s.toList.head? == some c

@[simp] theorem runs_nil : runs [] = [] := rfl

/-- No word is empty. -/
theorem ne_nil_of_mem_runs {cs w : List Char} (h : w ∈ runs cs) : w ≠ [] := by
  simp only [runs, List.mem_filter] at h
  intro e
  simp [e] at h

end ReversePolish.Text
