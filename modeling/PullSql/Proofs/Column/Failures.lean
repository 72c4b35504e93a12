import PullSql.Proofs.Column.Compile

/-!
# Expressions that do not compile

1. The error of a computation in steps is that of its first step that fails (`error?_bind`,
   `error?_mapM`).
2. So the error of an expression is that of its first node that fails, operands before their operator
   and the left one first (`error?_compileExpr`); only the names of the fields matter.
-/

namespace PullSql

open Sql (BinaryOp Expr)

/-- The error of a computation that fails. -/
def error? {α ε : Type} : Except ε α → Option ε
  | .error e => some e
  | .ok _ => none

section Error

variable {α β ε : Type} {x : Except ε α}

theorem error?_eq_some_iff {e : ε} : error? x = some e ↔ x = .error e := by
  cases x <;> simp [error?]

theorem error?_eq_none_iff : error? x = none ↔ ∃ a, x = .ok a := by
  cases x <;> simp [error?]

/-- The first step fails, or else the second one, whatever the first one gave it. -/
theorem error?_bind {f : α → Except ε β} {o : Option ε} (h : ∀ a, x = .ok a → error? (f a) = o) :
    error? (x >>= f) = (error? x).or o := by
  cases x with
  | error e => rfl
  | ok a => exact h a rfl

/-- A last step that cannot fail does not count. -/
theorem error?_bind_of_ok {f : α → Except ε β} (h : ∀ a, error? (f a) = none) :
    error? (x >>= f) = error? x :=
  (error?_bind fun a _ => h a).trans Option.or_none

theorem error?_mapM (f : α → Except ε β) (as : List α) :
    error? (as.mapM f) = as.findSome? fun a => error? (f a) := by
  induction as with
  | nil => rfl
  | cons a as ih =>
    rw [List.mapM_cons, List.findSome?_cons, ← ih]
    rcases f a with e | b
    · rfl
    · show error? (as.mapM f >>= fun bs => .ok (b :: bs)) = error? (as.mapM f)
      exact error?_bind_of_ok fun _ => rfl

end Error

/-- Why an expression over fields of these names does not compile, if it does not. -/
def Sql.Expr.failure? (fields : List String) : Expr → Option Error
  | field name => if fields.any (Name.same · name) then none else some (.unresolvedIdentifier name)
  | negate operand => operand.failure? fields
  | binary op left right =>
    ((left.failure? fields).or (right.failure? fields)).or
      (if op = .pow then some (.unsupportedOperator .pow) else none)
  | _ => none

namespace Column

theorem any_names_eq_isSome_resolve? (schema : Schema) (name : String) :
    schema.names.any (Name.same · name) = (schema.resolve? name).isSome := by
  rw [Schema.names, List.any_map, Schema.resolve?, List.isSome_find?]
  rfl

theorem error?_compileExpr (schema : Schema) (e : Expr) :
    error? (compileExpr schema e) = e.failure? schema.names := by
  induction e with
  | number d | text s | parameter n => rfl
  | field name =>
    rw [Expr.failure?, any_names_eq_isSome_resolve?, compileExpr]
    rcases schema.resolve? name <;> rfl
  | negate operand ih =>
    rw [Expr.failure?, ← ih, compileExpr]
    exact error?_bind_of_ok fun _ => rfl
  | binary op left right ihl ihr =>
    rw [Expr.failure?, ← ihl, ← ihr, compileExpr, Option.or_assoc]
    refine error?_bind fun _ _ => error?_bind fun _ _ => ?_
    by_cases h : op = .pow
    · subst h
      rfl
    · simp only [h, if_false]
      rfl

theorem error?_compileAll (schema : Schema) (targets : List (String × Expr)) :
    error? (compileAll schema targets) = targets.findSome? fun t => t.2.failure? schema.names := by
  rw [compileAll, error?_mapM]
  congr 1
  funext t
  rw [← error?_compileExpr]
  exact error?_bind_of_ok fun _ => rfl

end Column

end PullSql
