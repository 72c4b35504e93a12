import PullSql.Plan
import PullSql.Settings

/-!
# Queries

From a statement to a plan. The sources of a SELECT are scans of the catalog, each under its own
qualifier, joined from left to right; the items of the select list become columns over them. Planning
may give warnings, also where it fails.
-/

namespace PullSql

open Sql (Expr Select SelectItem Source Statement)

/-! ## Sources -/

/-- The plan of one source. Only the catalog itself can be queried. -/
def Catalog.planSource (c : Catalog) (s : Source) : Except Error Plan :=
  if c.isOwnName s.relation then .ok (.rename s.reference .scan)
  else .error (.relationNotFound s.relation)

/-- The plan of all sources, the first one outermost; a single row where there are none. -/
def Catalog.planSources (c : Catalog) (sources : List Source) : Except Error Plan := do
  match ← sources.mapM c.planSource with
  | [] => return .single (.integer 1) .integer
  | first :: rest => return rest.foldl .join first

/-! ## Select list -/

/-- A column to be computed: its name and its expression. -/
abbrev Target := String × Expr

/-- The target that gives a field as it is. -/
def Target.ofField (name : String) : Target := (name, .field name)

/-- The relation that a reference in `reference.*` means: that of the first source of this name, else
the one that it names itself. -/
def relationOf (sources : List Source) (reference : String) : String :=
  match sources.find? fun s => Name.same s.reference reference with
  | some s => s.relation
  | none => reference

/-- The name of an expression in the select list at a position, without an alias. -/
def Settings.exprName (s : Settings) (index : Nat) : Expr → String
  | .field name => name
  | _ => s.columnName index

/-- The targets of one item of the select list over sources with the given schema. -/
def Catalog.targets (c : Catalog) (settings : Settings) (sources : List Source) (schema : Schema)
    (item : SelectItem) (index : Nat) : Except Error (List Target) :=
  match item with
  | .all => .ok ((schema.filter (·.isQualified)).map fun f => Target.ofField f.name)
  | .allOf reference =>
    let relation := relationOf sources reference
    if c.isOwnName relation then
      .ok (Catalog.scanSchema.map fun f => Target.ofField (Name.qualified reference f.name))
    else .error (.relationNotFound relation)
  | .expr e alias? => .ok [(alias?.getD (settings.exprName index e), e)]

/-! ## Statements -/

/-- The plan of the sources of a query, and what is to be computed from them. -/
def Catalog.selectTargets (c : Catalog) (settings : Settings) (query : Select) :
    Except Error (Plan × List Target) := do
  let source ← c.planSources query.sources
  let targets ← query.items.zipIdx.mapM fun (item, index) =>
    c.targets settings query.sources source.schema item index
  return (source, targets.flatten)

/-- The plan of a query. Sources are looked at first, then all items, then all columns. -/
def Catalog.planSelect (c : Catalog) (settings : Settings) (query : Select) : Except Error Plan := do
  let (source, targets) ← c.selectTargets settings query
  let columns ← Column.compileAll source.schema targets
  return .project columns source

/-- The plan of a statement. SHOW TABLES is the query for everything in the catalog; statements that
are no queries have no plan. -/
def Catalog.plan (c : Catalog) (settings : Settings) : Statement → Except Error Plan
  | .select query => c.planSelect settings query
  | .showTables => c.planSelect settings (Select.everything c.ownName)
  | s => .error (.unsupportedQuery s.kind)

/-! ## Warnings -/

/-- The warnings of planning a query, which come from its columns. -/
def Catalog.selectWarnings (c : Catalog) (settings : Settings) (query : Select) : List Warning :=
  match c.selectTargets settings query with
  | .ok (source, targets) => Column.warningsAll source.schema targets
  | .error _ => []

/-- The warnings of planning a statement. -/
def Catalog.warnings (c : Catalog) (settings : Settings) : Statement → List Warning
  | .select query => c.selectWarnings settings query
  | .showTables => c.selectWarnings settings (Select.everything c.ownName)
  | _ => []

end PullSql
