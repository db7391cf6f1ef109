import ReversePolish.Text.Bytes

/-!
Lines of a text.

A line ends at a line feed; one carriage return before it belongs to the line end. The text after
the last line feed is a line of its own unless it is empty.
-/

namespace ReversePolish.Text

/-- A line without one carriage return at its end. -/
def dropReturn (cs : List Char) : List Char :=
  match cs.reverse with
  | '\r' :: rest => rest.reverse
  | _ => cs

/-- The pieces of a text between line feeds; a text that ends with a line feed has no last, empty
piece. -/
def rawLines (cs : List Char) : List (List Char) :=
  match (cs.splitOnP (· == '\n')).reverse with
  | [] :: pieces => pieces.reverse
  | pieces => pieces.reverse

/-- The lines of a text. -/
def lines (s : String) : List String :=
  (rawLines s.toList).map (fun l => String.ofList (dropReturn l))

/-- The lines of a text up to the first that has `limit` bytes or more. A carriage return belongs to
the line end only if a line feed follows it; it counts, and the line feed does not. -/
def fittingLines (limit : Nat) (s : String) : List String :=
  match (s.toList.splitOnP (· == '\n')).reverse with
  | [] => []
  | last :: before =>
    let ended := before.reverse
    let fitting := ended.takeWhile (fun l => byteLength l < limit)
    let stopped := decide (fitting.length < ended.length)
    let rest := if stopped || last.isEmpty || limit ≤ byteLength last then [] else [last]
    (fitting.map dropReturn ++ rest).map String.ofList

/-- The lines of a text as far as each is shorter than `limit` bytes, and whether a line that is
too long ended the reading. The carriage return counts, the line feed does not. -/
def boundedLines (limit : Nat) (s : String) : List String × Bool :=
  let raw := rawLines s.toList
  let short := raw.takeWhile (fun l => byteLength l < limit)
  (short.map (fun l => String.ofList (dropReturn l)), short.length < raw.length)

end ReversePolish.Text
