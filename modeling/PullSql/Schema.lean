import PullSql.Name
import PullSql.Text.Quoted

/-!
# Schemas

A schema lists the fields of the rows that a cursor gives, each with a type. Names may repeat, as in
the schema of a relation joined with itself; a name means its first match.
-/

namespace PullSql

/-- The type of a field. Operators give numbers, literals give doubles and strings, the catalog gives
texts. -/
inductive DataType where
  | integer
  | double
  | number
  | text
  | string
  deriving DecidableEq, Repr, Inhabited

namespace DataType

/-- The name in messages and listings. -/
def name : DataType → String
  | integer => "INTEGER"
  | double => "DOUBLE"
  | number => "NUMBER"
  | text => "TEXT"
  | string => "STRING"

/-- The name in JSON. -/
def jsonName : DataType → String
  | integer => "Integer"
  | double => "Double"
  | number => "Number"
  | text => "Text"
  | string => "String"

end DataType

/-- A named and typed field. -/
structure Field where
  name : String
  type : DataType
  deriving DecidableEq, Repr

namespace Field

/-- Whether the name has a qualifier. -/
def isQualified (f : Field) : Bool := Name.isQualified f.name

/-- The field in a listing. -/
def display (f : Field) : String := f.name ++ " " ++ f.type.name

/-- The JSON object of a field. -/
def json (f : Field) : String :=
  Text.jsonObject [("name", Text.quoted f.name), ("data_type", Text.quoted f.type.jsonName)]

end Field

/-- The fields of a relation or a cursor, in order. -/
abbrev Schema := List Field

namespace Schema

/-- The field names in order. -/
def names (s : Schema) : List String := s.map (·.name)

/-- The field that a name means: the first one of that name, letter case ignored. -/
def resolve? (s : Schema) (name : String) : Option Field := s.find? fun f => Name.same f.name name

/-- The same fields under a qualifier. -/
def qualify (s : Schema) (qualifier : String) : Schema :=
  s.map fun f => ⟨Name.qualified qualifier f.name, f.type⟩

/-- The JSON object of a schema. -/
def json (s : Schema) : String := Text.jsonObject [("fields", Text.jsonArray (s.map Field.json))]

end Schema

end PullSql
