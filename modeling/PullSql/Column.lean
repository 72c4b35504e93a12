import PullSql.Error
import PullSql.Evaluator
import PullSql.Schema
import PullSql.Warning

/-!
# Columns

A column of a query is an expression compiled against the schema of its input: a name, a type and an
evaluator. Every name is resolved here, so a wrong one is reported before there are any rows.
-/

namespace PullSql

open Sql (Expr)

/-- A computed column. -/
structure Column where
  name : String
  type : DataType
  evaluator : Evaluator
  deriving DecidableEq, Repr

namespace Column

/-- The field that a column gives to the rows it is in. -/
def field (c : Column) : Field := ⟨c.name, c.type⟩

/-- The type and the evaluator of an expression over rows of a schema. Operands are looked at before
their operator, the left one first. A placeholder is the integer 1. -/
def compileExpr (schema : Schema) : Expr → Except Error (DataType × Evaluator)
  | .number d => .ok (.double, .constant (.double d))
  | .text s => .ok (.string, .constant (.text s))
  | .field name =>
    match schema.resolve? name with
    | some f => .ok (f.type, .field f.name)
    | none => .error (.unresolvedIdentifier name)
  | .parameter _ => .ok (.integer, .constant (.integer 1))
  | .negate operand => do
    let (_, operand) ← compileExpr schema operand
    return (.number, .negate operand)
  | .binary op left right => do
    let (_, left) ← compileExpr schema left
    let (_, right) ← compileExpr schema right
    if op = .pow then throw (.unsupportedOperator op)
    return (.number, .binary op left right)

/-- The warnings of compiling an expression. The right operand is not looked at when the left one is
refused. -/
def warnings (schema : Schema) : Expr → List Warning
  | .parameter index => [.placeholder index]
  | .negate operand => warnings schema operand
  | .binary _ left right =>
    match compileExpr schema left with
    | .ok _ => warnings schema left ++ warnings schema right
    | .error _ => warnings schema left
  | _ => []

/-- A named expression compiled against a schema. -/
def compile (schema : Schema) (name : String) (expr : Expr) : Except Error Column := do
  let (type, evaluator) ← compileExpr schema expr
  return ⟨name, type, evaluator⟩

/-- Compiles named expressions in order, up to the first that fails. -/
def compileAll (schema : Schema) (targets : List (String × Expr)) : Except Error (List Column) :=
  targets.mapM fun (name, expr) => compile schema name expr

/-- The warnings of compiling named expressions. -/
def warningsAll (schema : Schema) : List (String × Expr) → List Warning
  | [] => []
  | (name, expr) :: rest =>
    match compile schema name expr with
    | .ok _ => warnings schema expr ++ warningsAll schema rest
    | .error _ => warnings schema expr

end Column

end PullSql
