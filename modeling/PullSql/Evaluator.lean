import PullSql.Row
import PullSql.Sql.Expr

/-!
# Evaluators

An evaluator computes a value from a row. It cannot fail: a missing field and an operation without a
result are NULL.
-/

namespace PullSql

open Sql (BinaryOp)

/-- An expression whose names are fields of the rows it runs on. -/
inductive Evaluator where
  | constant (value : Value)
  | field (name : String)
  | negate (operand : Evaluator)
  | binary (op : BinaryOp) (left right : Evaluator)
  deriving DecidableEq, Repr, Inhabited

/-- The result of an operator, if the operands have one. Powers have none. -/
def Value.operate? : BinaryOp → Value → Value → Option Value
  | .add => Value.add?
  | .sub => Value.sub?
  | .mul => Value.mul?
  | .div => Value.div?
  | .pow => fun _ _ => none

/-- The value of an evaluator on a row. -/
def Evaluator.evaluate (row : Row) : Evaluator → Value
  | constant value => value
  | field name => (row.get? name).getD .null
  | negate operand => (operand.evaluate row).neg?.getD .null
  | binary op left right => (Value.operate? op (left.evaluate row) (right.evaluate row)).getD .null

end PullSql
