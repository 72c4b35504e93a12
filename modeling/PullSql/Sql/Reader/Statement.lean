import PullSql.Sql.Reader.Expr

/-!
# Reading statements

Each clause is a reader; `statement` reads one statement up to the end of the input, behind an
optional semicolon.
-/

namespace PullSql.Sql

namespace Reader

/-! ## Queries -/

/-- Reads one item of a select list. `name.*` is seen by its three tokens. -/
def selectItem : Reader SelectItem := do
  if ← accept (.mark .asterisk) then return .all
  let s ← get
  match s.rest with
  | .identifier name :: .mark .dot :: .mark .asterisk :: rest =>
    set { s with rest }
    return .allOf name
  | _ => return .expr (← expr) (← identifierAfter? .AS)

/-- Reads one entry of a FROM list; its alias may do without AS. -/
def source : Reader Source := do
  let relation ← identifier
  if let some name ← identifierAfter? .AS then return ⟨relation, some name⟩
  match ← current with
  | .identifier name =>
    advance
    return ⟨relation, some name⟩
  | _ => return ⟨relation, none⟩

/-- Reads a SELECT statement behind its first word. -/
def select : Reader Select := do
  let items ← separatedBy .comma selectItem
  if ← accept (.keyword .FROM) then return ⟨items, some (← separatedBy .comma source)⟩
  else return ⟨items, none⟩

/-- The word TABLES, in any mix of ASCII letter cases. -/
def tablesOf? : Token → Option Unit
  | .identifier word => if word.toList.map Char.toUpper = "TABLES".toList then some () else none
  | _ => none

/-- Takes the word TABLES. -/
def tablesWord : Reader Unit := takeOf tablesOf? .tables

/-! ## Definitions -/

/-- An option of a column definition. -/
inductive ColumnOption where
  | default (value : Expr)
  | primaryKey
  | autoIncrement
  | comment (text : String)

/-- The column with one more option; a later option overrides an earlier one. -/
def ColumnOption.apply (column : ColumnDef) : ColumnOption → ColumnDef
  | default value => { column with default? := some value }
  | primaryKey => { column with primaryKey := true }
  | autoIncrement => { column with autoIncrement := true }
  | comment text => { column with comment? := some text }

/-- How to read the column option that a token opens, behind that token. -/
def columnOption? : Token → Option (Reader ColumnOption)
  | .keyword .DEFAULT => some (return .default (← expr))
  | .keyword .PRIMARY => some do
    expectKeyword .KEY
    return .primaryKey
  | .keyword .AUTO_INCREMENT => some (return .autoIncrement)
  | .keyword .COMMENT => some (return .comment (← textLiteral))
  | _ => none

/-- Reads one column definition, its options in any order. -/
def columnDef : Reader ColumnDef := do
  let name ← identifier
  let type ← identifier
  let options ← many columnOption? id
  return options.foldl ColumnOption.apply ⟨name, type, none, false, false, none⟩

/-- Reads a CREATE TABLE statement behind its first word. -/
def createTable : Reader CreateTable := do
  expectKeyword .TABLE
  let ifNotExists ← accept (.keyword .IF)
  if ifNotExists then
    expectKeyword .NOT
    expectKeyword .EXISTS
  let table ← identifier
  return ⟨table, ifNotExists, ← parenthesized columnDef⟩

/-! ## Insertions -/

/-- Reads one row of values. -/
def valueRow : Reader (List Expr) := do
  expectMark .leftParen
  let values ← separatedBy .comma expr
  expectMark .rightParen
  return values

/-- Reads an INSERT statement behind its first word. -/
def insert : Reader Insert := do
  expectKeyword .INTO
  let table ← identifier
  let columns ← parenthesized identifier
  expectKeyword .VALUES
  return ⟨table, columns, ← separatedBy .comma valueRow⟩

/-! ## Statements -/

/-- Reads a statement, without what may stand behind it. -/
def bareStatement : Reader Statement := do
  if ← accept (.keyword .SELECT) then return .select (← select)
  else if ← accept (.keyword .SHOW) then
    tablesWord
    return .showTables
  else if ← accept (.keyword .CREATE) then return .createTable (← createTable)
  else if ← accept (.keyword .INSERT) then return .insert (← insert)
  else fail .statement

/-- Reads a statement, an optional semicolon and the end of the input. -/
def statement : Reader Statement := do
  let s ← bareStatement
  let _ ← accept (.mark .semicolon)
  expect .endOfInput
  return s

end Reader

/-- Reads the statement at the front of a stream; the stream it leaves comes along, also on an
error. -/
def Stream.readStatement (s : Stream) : Except Error Statement × Stream := Reader.statement.run s

/-- The one statement of a text. -/
def Statement.ofText (sql : String) : Except Error Statement := do
  let s ← Stream.ofText sql
  s.readStatement.1

end PullSql.Sql
