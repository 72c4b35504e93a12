import PullSql.Catalog
import PullSql.Column

/-!
# Plans

A plan says how rows are made: three kinds of sources and three operators over them. `Plan.rows`
lists what a plan stands for; how cursors hand these rows out one by one is in `PullSql.Cursor`.
-/

namespace PullSql

/-- A tree of operators over sources of rows. -/
inductive Plan where
  /-- One row with one value. -/
  | single (value : Value) (type : DataType)
  /-- The names in the catalog. -/
  | scan
  /-- Given rows; the tag tells apart sources whose use is counted. -/
  | list (tag : Nat) (schema : Schema) (rows : List Row)
  /-- The rows of the input, every field repeated under a qualifier. -/
  | rename (qualifier : String) (input : Plan)
  /-- Every row of the left input with every row of the right one. -/
  | join (left right : Plan)
  /-- Columns computed from the rows of the input. -/
  | project (columns : List Column) (input : Plan)

namespace Plan

/-- The name of the field of a single row. -/
def valueField : String := "VALUE"

/-- The fields of the rows of a plan. -/
def schema : Plan → Schema
  | single _ type => [⟨valueField, type⟩]
  | scan => Catalog.scanSchema
  | list _ schema _ => schema
  | rename qualifier input => input.schema ++ input.schema.qualify qualifier
  | join left right => left.schema ++ right.schema
  | project columns _ => columns.map (·.field)

end Plan

/-! ## Rows made from rows -/

namespace Row

/-- The row of a single value. -/
def single (value : Value) : Row := empty.insert Plan.valueField value

/-- The row of a name in the catalog. -/
def ofName (name : String) : Row := empty.insert Catalog.identifierField (.text name)

/-- The fields of a row followed by a copy of each under a qualifier. -/
def rename (qualifier : String) (r : Row) : Row :=
  r.insertAll (r.fields.map fun (name, value) => (Name.qualified qualifier name, value))

/-- The computed columns, written one after another. -/
def project (columns : List Column) (r : Row) : Row :=
  ofList (columns.map fun c => (c.name, c.evaluator.evaluate r))

end Row

namespace Plan

/-- The rows of a plan over a catalog. In a join the left input is the outer loop. -/
def rows (catalog : Catalog) : Plan → List Row
  | single value _ => [Row.single value]
  | scan => catalog.scanNames.map Row.ofName
  | list _ _ rows => rows
  | rename qualifier input => (input.rows catalog).map (Row.rename qualifier)
  | join left right =>
    (left.rows catalog).flatMap fun a => (right.rows catalog).map fun b => a.merge b
  | project columns input => (input.rows catalog).map (Row.project columns)

/-- The number of rows of a plan over a catalog. -/
def count (catalog : Catalog) : Plan → Nat
  | single _ _ => 1
  | scan => catalog.scanNames.length
  | list _ _ rows => rows.length
  | rename _ input => input.count catalog
  | join left right => left.count catalog * right.count catalog
  | project _ input => input.count catalog

/-- Counting the rows agrees with listing them. -/
theorem length_rows (catalog : Catalog) (p : Plan) : (p.rows catalog).length = p.count catalog := by
  induction p with
  | join left right hl hr =>
    simp only [rows, count, List.length_flatMap, List.length_map, hl, hr, List.map_const',
      List.sum_replicate_nat]
  | _ => simp_all [rows, count]

end Plan

end PullSql
