/-!
# Settings

What a user may choose about a database: how columns without a name are called, and which log
messages are wanted.
-/

namespace PullSql

/-- The settings of a database. -/
structure Settings where
  /-- What the names of unnamed columns start with. -/
  columnStem : String := "col"
  /-- The log messages that are wanted. -/
  logFilter : String := "warn"
  deriving DecidableEq, Repr

/-- The name of an unnamed column at a position of the select list. -/
def Settings.columnName (s : Settings) (index : Nat) : String := s.columnStem ++ toString index

end PullSql
