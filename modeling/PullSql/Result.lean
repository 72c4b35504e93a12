import PullSql.Cursor

/-!
# Results

All rows of a query at once, with the fields they have.
-/

namespace PullSql

/-- The fields and the rows of a query. -/
structure Result where
  columns : Schema
  rows : List Row

/-- The rest of a cursor, which is closed. -/
def Cursor.collect (catalog : Catalog) (c : Cursor) : Result × Cursor :=
  let (rows, rest) := c.drain catalog
  (⟨c.schema, rows⟩, rest.close)

namespace Result

/-- Whether there are no rows. -/
def isEmpty (r : Result) : Bool := r.rows.isEmpty

/-- The JSON object of a result. -/
def json (r : Result) : String :=
  Text.jsonObject
    [("columns", Text.jsonArray (r.columns.map Field.json)),
     ("rows", Text.jsonArray (r.rows.map Row.json))]

end Result

end PullSql
