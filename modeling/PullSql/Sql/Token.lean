import PullSql.Text.Upper
import PullSql.Value

/-!
# Tokens

The tokens of SQL text: keywords, literals, identifiers, marks and the end of the input.
-/

namespace PullSql.Sql

/-- The reserved words, each constructor being the word itself. -/
inductive Keyword where
  | SELECT | FROM | AS | SHOW | CREATE | TABLE | IF | NOT | EXISTS | INSERT | INTO | VALUES
  | DEFAULT | PRIMARY | KEY | AUTO_INCREMENT | COMMENT
  deriving DecidableEq, Repr

namespace Keyword

/-- Every reserved word. -/
def all : List Keyword :=
  [SELECT, FROM, AS, SHOW, CREATE, TABLE, IF, NOT, EXISTS, INSERT, INTO, VALUES, DEFAULT, PRIMARY,
   KEY, AUTO_INCREMENT, COMMENT]

/-- The word in upper case. -/
def text : Keyword → String
  | SELECT => "SELECT"
  | FROM => "FROM"
  | AS => "AS"
  | SHOW => "SHOW"
  | CREATE => "CREATE"
  | TABLE => "TABLE"
  | IF => "IF"
  | NOT => "NOT"
  | EXISTS => "EXISTS"
  | INSERT => "INSERT"
  | INTO => "INTO"
  | VALUES => "VALUES"
  | DEFAULT => "DEFAULT"
  | PRIMARY => "PRIMARY"
  | KEY => "KEY"
  | AUTO_INCREMENT => "AUTO_INCREMENT"
  | COMMENT => "COMMENT"

/-- The reserved word that a word is in some mix of cases. -/
def ofWord? (word : String) : Option Keyword :=
  let upperWord := Text.upper word
  all.find? (·.text == upperWord)

end Keyword

/-- The tokens of one character. -/
inductive Mark where
  | leftParen | rightParen | comma | semicolon | dot | plus | minus | asterisk | slash | caret
  | question
  deriving DecidableEq, Repr

namespace Mark

/-- Every mark. -/
def all : List Mark :=
  [leftParen, rightParen, comma, semicolon, dot, plus, minus, asterisk, slash, caret, question]

/-- The character of a mark. -/
def char : Mark → Char
  | leftParen => '('
  | rightParen => ')'
  | comma => ','
  | semicolon => ';'
  | dot => '.'
  | plus => '+'
  | minus => '-'
  | asterisk => '*'
  | slash => '/'
  | caret => '^'
  | question => '?'

/-- The mark that a character is. -/
def ofChar? (c : Char) : Option Mark := all.find? (·.char == c)

theorem ofChar?_char (m : Mark) : ofChar? m.char = some m := by cases m <;> rfl

end Mark

/-- A token of SQL text. -/
inductive Token where
  | keyword (word : Keyword)
  | integer (n : Int64)
  | double (d : Double)
  | text (s : String)
  | identifier (name : String)
  | mark (m : Mark)
  | endOfInput
  deriving DecidableEq, Repr

/-- The text of a token in messages: a text between single quotes as it is, an identifier bare. -/
def Token.display : Token → String
  | keyword word => word.text
  | integer n => (Value.integer n).display
  | double d => (Value.double d).display
  | text s => "'" ++ s ++ "'"
  | identifier name => name
  | mark m => String.singleton m.char
  | endOfInput => "EOF"

end PullSql.Sql
