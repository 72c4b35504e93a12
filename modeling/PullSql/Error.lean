import PullSql.Sql.Token
import PullSql.Sql.Statement

/-!
# Errors

The causes for which a statement is refused, and the one place that words them. A cursor that has
been built cannot fail.
-/

namespace PullSql

/-- What a statement may go on with at some point. -/
inductive Expectation where
  | token (t : Sql.Token)
  | statement
  | expression
  | identifier
  | string
  /-- The word TABLES, which is not reserved. -/
  | tables

/-- The words for what was expected. -/
def Expectation.text : Expectation → String
  | token t => t.display
  | statement => "SELECT, SHOW, CREATE or INSERT"
  | expression => "expression"
  | identifier => "identifier"
  | string => "string"
  | tables => "TABLES"

/-- Why a statement is refused. Positions count characters from zero. -/
inductive Error where
  | unexpectedCharacter (c : Char) (position : Nat)
  | unterminatedString (position : Nat)
  | invalidNumber (position : Nat)
  | unexpectedToken (found : Sql.Token) (expected : Expectation)
  | unresolvedIdentifier (name : String)
  | relationNotFound (name : String)
  | unsupportedOperator (op : Sql.BinaryOp)
  | unsupportedQuery (kind : Sql.StatementKind)
  | relationAlreadyExists (name : String)

/-- The message of an error. -/
def Error.message : Error → String
  | unexpectedCharacter c position =>
    s!"Lexer error: unexpected character '{c}' at position {position}"
  | unterminatedString position =>
    s!"Lexer error: unterminated string literal starting at position {position}"
  | invalidNumber position => s!"Lexer error: invalid number format at position {position}"
  | unexpectedToken found expected =>
    "Parse error: unexpected token '" ++ found.display ++ "', expected " ++ expected.text
  | unresolvedIdentifier name => s!"Resolution error: unknown identifier '{name}'"
  | relationNotFound name => s!"Resolution error: relation '{name}' does not exist"
  | unsupportedOperator op => "Unsupported: operator '" ++ op.symbol ++ "' is not implemented"
  | unsupportedQuery kind => "Unsupported: " ++ kind.name ++ " queries cannot be executed"
  | relationAlreadyExists name => s!"Catalog error: relation '{name}' already exists"

end PullSql
