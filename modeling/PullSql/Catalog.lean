import PullSql.Error
import PullSql.Schema

/-!
# Catalog

The registered relations in the order of their registration. The catalog can itself be queried under
a name of its own, letter case ignored; its rows are that name and the names of the relations.
Relation names, by contrast, are told apart by letter case.
-/

namespace PullSql

/-- A registered relation. -/
structure Relation where
  name : String
  schema : Schema
  deriving DecidableEq, Repr

/-- The JSON object of a relation. -/
def Relation.json (r : Relation) : String :=
  Text.jsonObject [("name", Text.quoted r.name), ("schema", r.schema.json)]

/-- The registered relations and the name of the catalog itself. -/
structure Catalog where
  /-- The name under which the catalog itself is queried. -/
  ownName : String := "TABLES"
  relations : List Relation := []
  deriving DecidableEq, Repr

namespace Catalog

/-! ## Looking up -/

/-- Whether a name means the catalog itself. -/
def isOwnName (c : Catalog) (name : String) : Bool := Name.same c.ownName name

/-- The names of the registered relations, in order. -/
def relationNames (c : Catalog) : List String := c.relations.map (·.name)

/-- The relation of a name. -/
def get (c : Catalog) (name : String) : Except Error Relation :=
  match c.relations.find? (·.name == name) with
  | some r => .ok r
  | none => .error (.relationNotFound name)

/-- Whether a relation of the name is registered. -/
def contains (c : Catalog) (name : String) : Bool := c.relations.any (·.name == name)

/-! ## Registering -/

/-- Registers a relation behind the others. -/
def create (c : Catalog) (name : String) (schema : Schema) : Except Error Catalog :=
  if c.isOwnName name || c.contains name then .error (.relationAlreadyExists name)
  else .ok { c with relations := c.relations ++ [⟨name, schema⟩] }

/-- Removes a relation. -/
def drop (c : Catalog) (name : String) : Except Error Catalog :=
  if c.contains name then .ok { c with relations := c.relations.eraseP (·.name == name) }
  else .error (.relationNotFound name)

/-! ## The catalog as a relation -/

/-- The name of the only field of the catalog's rows. -/
def identifierField : String := "IDENTIFIER"

/-- The schema of the catalog's rows. -/
def scanSchema : Schema := [⟨identifierField, .text⟩]

/-- The names that a scan of the catalog lists: its own, then those of the relations. -/
def scanNames (c : Catalog) : List String := c.ownName :: c.relationNames

/-- Whether a name still means the catalog or a registered relation. -/
def isLive (c : Catalog) (name : String) : Bool := c.isOwnName name || c.contains name

/-- A listing of the fields of a relation or of the catalog itself. -/
def describe (c : Catalog) (name : String) : Except Error String := do
  let schema ← if c.isOwnName name then pure scanSchema else (·.schema) <$> c.get name
  let lines := schema.map fun f => "  " ++ f.display ++ "\n"
  return "Relation: " ++ name ++ "\nFields:\n" ++ String.join lines

end Catalog

end PullSql
