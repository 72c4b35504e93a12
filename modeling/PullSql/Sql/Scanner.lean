import PullSql.Error
import PullSql.Sql.Scanner.Gap
import PullSql.Sql.Scanner.Numeral

/-!
# Scanner

Splits SQL text into tokens. A scanner remembers how long the whole text is and what is left of it,
so it knows its position; it may be asked again after an error and goes on where the error left it.

* `Scanner.next` reads one token.
* `tokens` reads them all, the end of the input included.
-/

namespace PullSql.Sql

/-! ## Quoted tokens

Both readers get the input behind the opening quote and give the text and the input behind the
closing quote, or nothing if the quote is never closed. -/

/-- Reads a text literal: a doubled quote and a quote behind a backslash each stand for a quote. -/
def closeText : List Char → Option (List Char × List Char)
  | [] => none
  | '\\' :: '\'' :: rest => (closeText rest).map fun (s, rest) => ('\'' :: s, rest)
  | '\'' :: '\'' :: rest => (closeText rest).map fun (s, rest) => ('\'' :: s, rest)
  | '\'' :: rest => some ([], rest)
  | c :: rest => (closeText rest).map fun (s, rest) => (c :: s, rest)

/-- Reads a quoted identifier: the doubled quote stands for the quote. -/
def closeIdentifier (quote : Char) : List Char → Option (List Char × List Char)
  | [] => none
  | [c] => if c = quote then some ([], []) else none
  | c :: d :: rest =>
    if c = quote then
      if d = quote then (closeIdentifier quote rest).map fun (s, rest) => (quote :: s, rest)
      else some ([], d :: rest)
    else (closeIdentifier quote (d :: rest)).map fun (s, rest) => (c :: s, rest)

/-- The quotes around identifiers: the double quote and the backquote. -/
def isIdentifierQuote (c : Char) : Bool := c = '"' || c = '\x60'

/-! ## Words -/

/-- The characters of a bare word behind its first letter. -/
def isWordChar (c : Char) : Bool := c.isAlphanum || c = '_'

/-- The token of a bare word. -/
def wordToken (word : String) : Token :=
  match Keyword.ofWord? word with
  | some k => .keyword k
  | none => .identifier word

/-! ## The scanner -/

/-- What is left of a text whose length is known. -/
structure Scanner where
  length : Nat
  rest : List Char

namespace Scanner

/-- The scanner at the start of a text. -/
def ofText (sql : String) : Scanner := ⟨sql.toList.length, sql.toList⟩

/-- The number of characters read so far. -/
def position (s : Scanner) : Nat := s.length - s.rest.length

/-- The scanner moved on to a later place of its text. -/
def moveTo (s : Scanner) (rest : List Char) : Scanner := ⟨s.length, rest⟩

/-- Reads the token that starts with `c`, at the scanner's position. An unexpected character stays in
the input; a quote that is never closed takes the rest of the input with it. -/
def read (s : Scanner) (c : Char) (rest : List Char) : Except Error Token × Scanner :=
  if let some m := Mark.ofChar? c then (.ok (.mark m), s.moveTo rest)
  else if c = '\'' then
    match closeText rest with
    | some (text, rest) => (.ok (.text (String.ofList text)), s.moveTo rest)
    | none => (.error (.unterminatedString s.position), s.moveTo [])
  else if isIdentifierQuote c then
    match closeIdentifier c rest with
    | some (name, rest) => (.ok (.identifier (String.ofList name)), s.moveTo rest)
    | none => (.error (.unterminatedString s.position), s.moveTo [])
  else if c.isDigit then
    let (run, rest) := numeralRun false (c :: rest)
    match numeralToken? run with
    | some t => (.ok t, s.moveTo rest)
    | none => (.error (.invalidNumber s.position), s.moveTo rest)
  else if c.isAlpha then
    let word := (c :: rest).takeWhile isWordChar
    (.ok (wordToken (String.ofList word)), s.moveTo ((c :: rest).dropWhile isWordChar))
  else (.error (.unexpectedCharacter c s.position), s)

/-- Reads the next token behind blanks and comments. At the end it gives the end of the input, again
and again. -/
def next (s : Scanner) : Except Error Token × Scanner :=
  let start := s.moveTo (skipGap s.rest)
  match start.rest with
  | [] => (.ok .endOfInput, start)
  | c :: rest => start.read c rest

/-- Reads tokens up to the end of the input, at most `bound` of them before it. -/
def tokensWithin : Nat → Scanner → Except Error (List Token)
  | 0, _ => .ok [.endOfInput]
  | bound + 1, s =>
    match s.next with
    | (.error e, _) => .error e
    | (.ok .endOfInput, _) => .ok [.endOfInput]
    | (.ok t, s) => (tokensWithin bound s).map (t :: ·)

end Scanner

/-- The tokens of a text, the end of the input last. Every other token takes a character at least, so
the length of the text bounds their number. -/
def tokens (sql : String) : Except Error (List Token) :=
  let s := Scanner.ofText sql
  s.tokensWithin (s.length + 1)

end PullSql.Sql
