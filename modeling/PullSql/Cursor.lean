import PullSql.Plan.State

/-!
# Cursors

A cursor is a plan together with how far it has come. Every call is given the catalog as it is at that
moment, since a catalog may change while cursors on it are open.

* `Cursor.ofPlan` opens a plan; `Cursor.rename`, `Cursor.join` and `Cursor.project` put an operator
  on top of open cursors, as `rename_ofPlan` and `join_ofPlan` say.
* `Cursor.take` and `Cursor.drain` fetch rows up to a number and up to the end.
-/

namespace PullSql

/-- A plan under way. -/
structure Cursor where
  plan : Plan
  state : plan.State

namespace Cursor

/-- A new cursor on a plan. -/
def ofPlan (catalog : Catalog) (plan : Plan) : Cursor := ⟨plan, Plan.start catalog plan⟩

/-- The fields of the rows. -/
def schema (c : Cursor) : Schema := c.plan.schema

/-! ## Operators over cursors -/

/-- A cursor that repeats every field under a qualifier. -/
def rename (qualifier : String) (input : Cursor) : Cursor :=
  ⟨.rename qualifier input.plan, .rename input.state false⟩

/-- A cursor that pairs the rows of two cursors. -/
def join (catalog : Catalog) (left right : Cursor) : Cursor :=
  ⟨.join left.plan right.plan,
    Plan.reset catalog (.join left.plan right.plan) (.join left.state right.state none false)⟩

/-- The end of the rows of a cursor. -/
def close (c : Cursor) : Cursor := ⟨c.plan, Plan.close c.plan c.state⟩

/-- Why a projection could not be built, and its input, which is closed. -/
structure Refusal where
  error : Error
  input : Cursor

/-- A cursor that computes columns from the rows of a cursor. When one of them does not compile, the
input is closed. -/
def project (targets : List (String × Sql.Expr)) (input : Cursor) : Except Refusal Cursor :=
  match Column.compileAll input.schema targets with
  | .ok columns => .ok ⟨.project columns input.plan, .project input.state false⟩
  | .error e => .error ⟨e, input.close⟩

theorem rename_ofPlan (catalog : Catalog) (qualifier : String) (p : Plan) :
    (ofPlan catalog p).rename qualifier = ofPlan catalog (.rename qualifier p) := rfl

theorem join_ofPlan (catalog : Catalog) (left right : Plan) :
    join catalog (ofPlan catalog left) (ofPlan catalog right) = ofPlan catalog (.join left right) :=
  rfl

/-! ## Rows -/

/-- The next row and the cursor behind it. -/
def fetch (catalog : Catalog) (c : Cursor) : Option Row × Cursor :=
  let (row, state) := Plan.fetch catalog c.plan c.state
  (row, ⟨c.plan, state⟩)

/-- The cursor back at its first row. -/
def reset (catalog : Catalog) (c : Cursor) : Cursor := ⟨c.plan, Plan.reset catalog c.plan c.state⟩

/-- The next rows, at most `n` of them, and the cursor behind them. -/
def take (catalog : Catalog) : Nat → Cursor → List Row × Cursor
  | 0, c => ([], c)
  | n + 1, c =>
    match c.fetch catalog with
    | (none, c) => ([], c)
    | (some row, c) =>
      let (rows, c) := take catalog n c
      (row :: rows, c)

/-- All rows still to come and the cursor at its end. -/
def drain (catalog : Catalog) (c : Cursor) : List Row × Cursor :=
  c.take catalog (Plan.remaining catalog c.plan c.state + 1)

/-- How often the counted sources were reset and closed. -/
def tallies (c : Cursor) : List Plan.Tally := Plan.tallies c.plan c.state

end Cursor

end PullSql
