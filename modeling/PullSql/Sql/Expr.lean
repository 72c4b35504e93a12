import PullSql.Value

/-!
# Expressions

Scalar expressions as they are written: literals, field names, placeholders and operators.
-/

namespace PullSql.Sql

/-- The operators between two expressions. -/
inductive BinaryOp where
  | add | sub | mul | div | pow
  deriving DecidableEq, Repr

/-- The sign of an operator. -/
def BinaryOp.symbol : BinaryOp → String
  | add => "+"
  | sub => "-"
  | mul => "*"
  | div => "/"
  | pow => "^"

/-- A scalar expression. -/
inductive Expr where
  | number (d : Double)
  | text (s : String)
  /-- A field by name, a qualifier and a dot included. -/
  | field (name : String)
  /-- A placeholder, numbered from zero in the order of the text. -/
  | parameter (index : Nat)
  | negate (operand : Expr)
  | binary (op : BinaryOp) (left right : Expr)
  deriving DecidableEq, Repr, Inhabited

end PullSql.Sql
