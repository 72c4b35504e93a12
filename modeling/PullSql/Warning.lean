/-!
# Warnings

What a database notes about a statement that it runs all the same. A warning goes to a log, with the
place that it comes from, a text and data.
-/

namespace PullSql

/-- A note on a statement. -/
inductive Warning where
  /-- A placeholder has no value, so a constant stands for it. -/
  | placeholder (index : Nat)
  deriving DecidableEq, Repr

namespace Warning

/-- The place that a warning comes from. -/
def origin : Warning → String
  | placeholder _ => "cursordb::executor::expression"

/-- What a warning says. -/
def text : Warning → String
  | placeholder _ => "no compilation rule, substituting a constant"

/-- The data of a warning, by name. -/
def data : Warning → List (String × String)
  | placeholder index => [("expr", s!"Parameter({index})")]

end Warning

end PullSql
