import ReversePolish.Json.Printer
import ReversePolish.Json.Reader

/-!
Symbols of a query.

A text is cut into names, numbers, strings and marks before it is read as a query. What cannot be a
symbol is kept as one all the same, so that it is reported only if the query gets that far.

Blanks mean nothing, and neither does a comment, which goes from `#` to the end of the line; behind
a backslash, a line end or another backslash belongs to the comment. The null character ends the
text and is the last symbol itself, unless it stands in a comment.
-/

namespace ReversePolish.Query

/-- A symbol of a query. -/
inductive Symbol where
  /-- A dot that is not followed by a name. -/
  | dot
  | twoDots
  /-- A dot and the name behind it. -/
  | field (name : String)
  | name (name : String)
  /-- A name together with the name of the module it belongs to. -/
  | qualifiedName (name : String)
  /-- The name of a bound value, with its dollar sign. -/
  | reference (name : String)
  /-- The name of a bound value of a module, with its dollar sign. -/
  | qualifiedReference (name : String)
  | number (v : JsonValue)
  | string (s : String)
  | mark (text : String)
  /-- The null character, which ends the text. -/
  | stop
  | badNumber
  | badEscape
  | unterminated

/-- A symbol as it was written. -/
structure Written where
  symbol : Symbol
  text : List Char

def startsName (c : Char) : Bool :=
  c.isAlpha || c == '_'

def continuesName (c : Char) : Bool :=
  c.isAlphanum || c == '_'

/-! ## Numbers -/

/-- How far a number has been read. -/
inductive NumberPart where
  | whole
  | fraction
  /-- Right behind the mark of the exponent. -/
  | exponentSign
  /-- Behind the sign of the exponent. -/
  | exponentStart
  | exponent

/-- The rest of a number, and whether it is one: what runs on as a name or has a second point is
none, and neither is an exponent without digits. -/
def numberRest : NumberPart → List Char → List Char × Bool
  | .exponentSign, [] | .exponentStart, [] => ([], false)
  | .whole, [] | .fraction, [] | .exponent, [] => ([], true)
  | part, c :: rest =>
    let more (next : NumberPart) : List Char × Bool :=
      let (taken, ok) := numberRest next rest
      (c :: taken, ok)
    if Numeral.isDecimalDigit c then
      match part with
      | .exponentSign | .exponentStart => more .exponent
      | part => more part
    else
      match part with
      | .whole | .fraction =>
        if c = '.' then
          match part with
          | .whole => more .fraction
          | _ => ([c], false)
        else if c = 'e' ∨ c = 'E' then more .exponentSign
        else if startsName c then ([c], false)
        else ([], true)
      | .exponentSign =>
        if c = '+' ∨ c = '-' then more .exponentStart
        else if startsName c then ([c], false)
        else ([], false)
      | .exponentStart => if startsName c then ([c], false) else ([], false)
      | .exponent => if startsName c then ([c], false) else ([], true)

/-- The value of a number: an integer if it has neither a point nor an exponent, and a wide one if
it needs more than 64 bits. -/
def numberValue (digits : List Char) : JsonValue :=
  if digits.all Numeral.isDecimalDigit then
    let n : Int := Numeral.digitsValue 10 digits
    if n < Floating.countLimit then .integer n else .wide n
  else
    match Numeral.decimal? false digits with
    | some n => .number n.round
    | none => .null

/-! ## Strings -/

/-- The parts of a string up to its closing mark, or what is there instead. Control characters may
stand in it. -/
def stringPieces : List Char → Except Written (List JsonValue.Piece × List Char)
  | [] => .error ⟨.unterminated, []⟩
  | '\x22' :: rest => .ok ([], rest)
  | '\\' :: 'u' :: a :: b :: c :: d :: rest =>
    if [a, b, c, d].all Numeral.isHexDigit then
      match stringPieces rest with
      | .ok (pieces, rest) => .ok (.unit (Numeral.digitsValue 16 [a, b, c, d]) :: pieces, rest)
      | .error e => .error e
    else .error ⟨.badEscape, '\\' :: 'u' :: [a, b, c, d].takeWhile Numeral.isHexDigit⟩
  | '\\' :: 'u' :: short => .error ⟨.badEscape, '\\' :: 'u' :: short.takeWhile Numeral.isHexDigit⟩
  | ['\\'] => .error ⟨.unterminated, []⟩
  | '\\' :: letter :: rest =>
    match JsonValue.escaped? letter with
    | none => .error ⟨.badEscape, (Text.front 2 ['\\', letter]).shown⟩
    | some c =>
      match stringPieces rest with
      | .ok (pieces, rest) => .ok (.plain c :: pieces, rest)
      | .error e => .error e
  | c :: rest =>
    match stringPieces rest with
    | .ok (pieces, rest) => .ok (.plain c :: pieces, rest)
    | .error e => .error e

/-! ## Symbols -/

/-- The marks of more than one character; those that begin with another one come first. -/
def longMarks : List String :=
  ["?//", "//=", "//", "|=", "+=", "-=", "*=", "/=", "%=", "==", "!=", ">=", "<="]

/-- The mark at the start of a text; every character is one by itself. -/
def markOf (c : Char) (rest : List Char) : String :=
  (longMarks.find? (fun m => m.toList.isPrefixOf (c :: rest))).getD (String.ofList [c])

/-- The length of the name at the start of a text, and whether the name of a module goes in front of
it. -/
def nameLength (cs : List Char) : Nat × Bool :=
  let first := (cs.takeWhile continuesName).length
  match cs.drop first with
  | ':' :: ':' :: c :: rest =>
    if startsName c then (first + 3 + (rest.takeWhile continuesName).length, true)
    else (first, false)
  | _ => (first, false)

/-- The first symbol of a text that starts with neither a blank nor a comment, and the text behind
it. -/
def nextSymbol (c : Char) (rest : List Char) : Written × List Char :=
  let cut (s : String → Symbol) (n : Nat) : Written × List Char :=
    let text := (c :: rest).take n
    (⟨s (String.ofList text), text⟩, (c :: rest).drop n)
  let number (part : NumberPart) : Written × List Char :=
    let (taken, ok) := numberRest part rest
    let value := numberValue (c :: taken)
    cut (fun _ => if ok then .number value else .badNumber) (taken.length + 1)
  if startsName c then
    let (length, qualified) := nameLength (c :: rest)
    cut (if qualified then .qualifiedName else .name) length
  else if Numeral.isDecimalDigit c then number .whole
  else if c = '.' then
    match rest with
    | d :: _ =>
      if d = '.' then cut (fun _ => .twoDots) 2
      else if startsName d then
        let name := rest.takeWhile continuesName
        cut (fun _ => .field (String.ofList name)) (name.length + 1)
      else if Numeral.isDecimalDigit d then number .fraction
      else cut (fun _ => .dot) 1
    | [] => cut (fun _ => .dot) 1
  else if c = '$' ∧ rest.head?.any startsName then
    let (length, qualified) := nameLength rest
    cut (if qualified then .qualifiedReference else .reference) (1 + length)
  else if c = '\x22' then
    match stringPieces rest with
    | .ok (pieces, behind) =>
      cut (fun _ => .string (String.ofList (JsonValue.joinPieces pieces)))
        (rest.length + 1 - behind.length)
    | .error written => (written, [])
  else cut .mark (markOf c rest).length

/-- The rest of a comment is dropped. -/
def skipComment : List Char → List Char
  | [] => []
  | '\\' :: '\\' :: rest => skipComment rest
  | '\\' :: '\r' :: '\n' :: rest => skipComment rest
  | '\\' :: '\r' :: rest => skipComment rest
  | '\\' :: '\n' :: rest => skipComment rest
  | '\x00' :: _ => []
  | c :: rest => if c = '\n' ∨ c = '\r' then c :: rest else skipComment rest

/-- The blanks and comments in front of a text are dropped. -/
def skipBlanks : (fuel : Nat) → List Char → List Char
  | 0, cs => cs
  | fuel + 1, cs =>
    match JsonValue.skip cs with
    | '#' :: rest => skipBlanks fuel (skipComment rest)
    | rest => rest

/-- The symbols of a text. Each takes up a character, so the length of the text is enough fuel. -/
def symbols : (fuel : Nat) → List Char → List Written
  | 0, _ => []
  | fuel + 1, cs =>
    match skipBlanks cs.length cs with
    | [] => []
    | '\x00' :: _ => [⟨.stop, ['\x00']⟩]
    | c :: rest =>
      let (written, behind) := nextSymbol c rest
      written :: symbols fuel behind

/-- The symbols of a query. -/
def symbolsOf (text : String) : List Written :=
  let cs := text.toList
  symbols cs.length cs

end ReversePolish.Query
