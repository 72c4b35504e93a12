import PullSql.Sql.Scanner

/-!
# Readers

A reader takes tokens from the front of a stream and gives a result or an error. Either way the
stream stays where the reader left it, with the number of placeholders read so far, so reading can
go on after an error.
-/

namespace PullSql.Sql

/-- The tokens left to read and the number of placeholders read. Behind the last token there are only
ends of input. -/
structure Stream where
  rest : List Token
  parameters : Nat
  deriving DecidableEq

/-- The stream of all tokens of a text. -/
def Stream.ofText (sql : String) : Except Error Stream := (tokens sql).map (⟨·, 0⟩)

/-- The next token. -/
def Stream.current (s : Stream) : Token := s.rest.headD .endOfInput

/-- The stream behind its next token. -/
def Stream.advance (s : Stream) : Stream := { s with rest := s.rest.tail }

/-- An action that reads from a stream and may fail. -/
abbrev Reader := ExceptT Error (StateM Stream)

namespace Reader

/-! ## Single tokens -/

/-- The next token, left in the stream. -/
def current : Reader Token := return (← get).current

/-- Takes the next token. -/
def advance : Reader Unit := modify Stream.advance

/-- Fails on the next token. -/
def fail {α : Type} (expected : Expectation) : Reader α := do
  throw (.unexpectedToken (← current) expected)

/-- Takes the next token if it is `t`, and tells whether it was. -/
def accept (t : Token) : Reader Bool := do
  if (← current) = t then
    advance
    return true
  else
    return false

/-- Takes the token `t`. -/
def expect (t : Token) : Reader Unit := do
  unless ← accept t do fail (.token t)

/-- Takes a keyword. -/
def expectKeyword (word : Keyword) : Reader Unit := expect (.keyword word)

/-- Takes a mark. -/
def expectMark (m : Mark) : Reader Unit := expect (.mark m)

/-- Takes a token of the kind of which `pick` makes something. -/
def takeOf {α : Type} (pick : Token → Option α) (expected : Expectation) : Reader α := do
  match pick (← current) with
  | some a =>
    advance
    return a
  | none => fail expected

/-- The name of an identifier. -/
def identifierOf? : Token → Option String
  | .identifier name => some name
  | _ => none

/-- The text of a text literal. -/
def literalOf? : Token → Option String
  | .text s => some s
  | _ => none

/-- Takes an identifier. -/
def identifier : Reader String := takeOf identifierOf? .identifier

/-- Takes a text literal. -/
def textLiteral : Reader String := takeOf literalOf? .string

/-- Takes an identifier if the keyword stands in front of it. -/
def identifierAfter? (word : Keyword) : Reader (Option String) := do
  if ← accept (.keyword word) then return some (← identifier) else return none

/-! ## Repetition -/

/-- Reads at most `bound` items, as long as the next token opens one. The token is taken and tells how
to read the item. -/
def manyWithin {α β : Type} (opens : Token → Option β) (item : β → Reader α) :
    Nat → Reader (List α)
  | 0 => return []
  | bound + 1 => do
    match opens (← current) with
    | none => return []
    | some how =>
      advance
      let first ← item how
      return first :: (← manyWithin opens item bound)

/-- Reads items as long as the next token opens one. Each takes a token, so the tokens left bound
their number. -/
def many {α β : Type} (opens : Token → Option β) (item : β → Reader α) : Reader (List α) := do
  manyWithin opens item (← get).rest.length

/-- Reads one item, and one more behind each mark `m`. -/
def separatedBy {α : Type} (m : Mark) (item : Reader α) : Reader (List α) := do
  let first ← item
  return first :: (← many (fun t => if t = .mark m then some () else none) fun _ => item)

/-- Reads a list in parentheses, which may be empty. -/
def parenthesized {α : Type} (item : Reader α) : Reader (List α) := do
  expectMark .leftParen
  let items ← if (← current) = .mark .rightParen then pure [] else separatedBy .comma item
  expectMark .rightParen
  return items

end Reader

end PullSql.Sql
