import PullSql.Sql.Expr

/-!
# Statements

The statements of SQL text. Only queries can be run; the others are read and described.
-/

namespace PullSql.Sql

/-- One item of a select list. -/
inductive SelectItem where
  /-- All qualified fields, `*`. -/
  | all
  /-- All fields of one source, `reference.*`. -/
  | allOf (reference : String)
  | expr (expr : Expr) (alias? : Option String)
  deriving DecidableEq, Repr

/-- One entry of a FROM list. -/
structure Source where
  relation : String
  alias? : Option String
  deriving DecidableEq, Repr

/-- The name of a source inside the query: its alias, else the name of its relation. -/
def Source.reference (s : Source) : String := s.alias?.getD s.relation

/-- A SELECT statement. -/
structure Select where
  items : List SelectItem
  /-- The FROM list, if there is one. -/
  sources? : Option (List Source)
  deriving DecidableEq, Repr

/-- The sources of a SELECT, none without a FROM list. -/
def Select.sources (s : Select) : List Source := s.sources?.getD []

/-- The query for everything in one relation. -/
def Select.everything (relation : String) : Select := ⟨[.all], some [⟨relation, none⟩]⟩

/-- A column of a CREATE TABLE statement. -/
structure ColumnDef where
  name : String
  type : String
  default? : Option Expr
  primaryKey : Bool
  autoIncrement : Bool
  comment? : Option String
  deriving DecidableEq, Repr

/-- A CREATE TABLE statement. -/
structure CreateTable where
  table : String
  ifNotExists : Bool
  columns : List ColumnDef
  deriving DecidableEq, Repr

/-- An INSERT statement. -/
structure Insert where
  table : String
  columns : List String
  rows : List (List Expr)
  deriving DecidableEq, Repr

/-- The kinds of statements. -/
inductive StatementKind where
  | select | showTables | createTable | insert
  deriving DecidableEq, Repr

/-- The words that open a statement of the kind. -/
def StatementKind.name : StatementKind → String
  | select => "SELECT"
  | showTables => "SHOW TABLES"
  | createTable => "CREATE TABLE"
  | insert => "INSERT"

/-- A statement. -/
inductive Statement where
  | select (query : Select)
  | showTables
  | createTable (definition : CreateTable)
  | insert (insertion : Insert)
  deriving DecidableEq, Repr

/-- The kind of a statement. -/
def Statement.kind : Statement → StatementKind
  | select _ => .select
  | showTables => .showTables
  | createTable _ => .createTable
  | insert _ => .insert

end PullSql.Sql
