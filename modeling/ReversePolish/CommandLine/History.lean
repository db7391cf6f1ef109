import ReversePolish.Text.Fragment
import ReversePolish.Text.Line

/-!
The history of a prompt: the lines that were entered, of which only the latest are kept.

A line that repeats the one before it is not entered again.
-/

namespace ReversePolish.CommandLine

/-- The number of lines that a history keeps. -/
def History.limit : Nat := 1000

/-- Entered lines, oldest first. -/
structure History where
  items : List Text.Fragment
  length_le : items.length ≤ History.limit
  deriving DecidableEq, Repr

namespace History

/-- The latest of the lines. -/
def latest (lines : List Text.Fragment) : History where
  items := lines.drop (lines.length - limit)
  length_le := by
    rw [List.length_drop]
    omega

def empty : History := ⟨[], Nat.zero_le _⟩

/-- Enter a line. -/
def enter (h : History) (line : Text.Fragment) : History :=
  if h.items.getLast? = some line then h else latest (h.items ++ [line])

/-- The first length in bytes at which a line of a history file is too long. -/
def lineLimit : Nat := 4096

/-- The history that a file holds, one line each. Repetitions in it stay; a line that is too long
ends the reading. -/
def load (text : String) : History :=
  latest ((Text.fittingLines lineLimit text).map .ofText)

/-- The text of the file that keeps a history. -/
def render (h : History) : String :=
  String.join (h.items.map (·.shown ++ "\n"))

end History

end ReversePolish.CommandLine
