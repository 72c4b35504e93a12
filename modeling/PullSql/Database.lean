import PullSql.Query
import PullSql.Result
import PullSql.Sql.Reader.Statement

/-!
# Databases

A catalog and settings, with the ways to run SQL text on them: as an open cursor or as a collected
result.
-/

namespace PullSql

/-- A catalog with the settings for queries on it. -/
structure Database where
  catalog : Catalog := {}
  settings : Settings := {}

namespace Database

/-- A new cursor on the rows of a statement. -/
def execute (db : Database) (s : Sql.Statement) : Except Error Cursor := do
  return .ofPlan db.catalog (← db.catalog.plan db.settings s)

/-- A new cursor on the rows of SQL text. -/
def query (db : Database) (sql : String) : Except Error Cursor := do
  db.execute (← Sql.Statement.ofText sql)

/-- The warnings of running SQL text. -/
def warnings (db : Database) (sql : String) : List Warning :=
  match Sql.Statement.ofText sql with
  | .ok s => db.catalog.warnings db.settings s
  | .error _ => []

/-- The collected rows of a cursor. -/
def collectCursor (db : Database) (c : Cursor) : Result := (c.collect db.catalog).1

/-- The collected rows of SQL text. -/
def collect (db : Database) (sql : String) : Except Error Result := do
  return db.collectCursor (← db.query sql)

end Database

end PullSql
