import PullSql.Value

/-!
# Rows

A row maps field names to values and remembers the order in which the names arrived. Writing to a
name that is there keeps its place and replaces its value. Merging two rows writes the second one
over the first.
-/

namespace PullSql

/-- Writes a value under a name: in place if the name is there, else at the end. -/
def writeField (name : String) (value : Value) : List (String × Value) → List (String × Value)
  | [] => [(name, value)]
  | field :: rest =>
    if field.1 = name then (name, value) :: rest else field :: writeField name value rest

/-- Writing to a name that is there leaves the names as they are. -/
theorem map_fst_writeField_of_mem {name : String} {fields : List (String × Value)} (value : Value)
    (h : name ∈ fields.map (·.1)) : (writeField name value fields).map (·.1) = fields.map (·.1) := by
  induction fields with
  | nil => simp at h
  | cons field rest ih => by_cases hn : field.1 = name <;> grind [writeField]

/-- Writing to a new name puts it behind the others. -/
theorem writeField_of_not_mem {name : String} {fields : List (String × Value)} (value : Value)
    (h : name ∉ fields.map (·.1)) : writeField name value fields = fields ++ [(name, value)] := by
  induction fields with
  | nil => rfl
  | cons field rest ih => by_cases hn : field.1 = name <;> grind [writeField]

theorem map_fst_writeField_of_not_mem {name : String} {fields : List (String × Value)} (value : Value)
    (h : name ∉ fields.map (·.1)) :
    (writeField name value fields).map (·.1) = fields.map (·.1) ++ [name] := by
  rw [writeField_of_not_mem value h, List.map_append]
  rfl

/-- Writing keeps names distinct. -/
theorem nodup_map_fst_writeField {name : String} {value : Value} {fields : List (String × Value)}
    (h : (fields.map (·.1)).Nodup) : ((writeField name value fields).map (·.1)).Nodup := by
  by_cases hm : name ∈ fields.map (·.1)
  · rwa [map_fst_writeField_of_mem value hm]
  · rw [map_fst_writeField_of_not_mem value hm, List.nodup_append]
    exact ⟨h, by simp, by grind⟩

/-- Fields with distinct names, in order. -/
structure Row where
  fields : List (String × Value)
  distinct : (fields.map (·.1)).Nodup
  deriving DecidableEq

namespace Row

/-- The row without fields. -/
def empty : Row := ⟨[], List.nodup_nil⟩

instance : Inhabited Row := ⟨empty⟩

/-- The field names in order. -/
def names (r : Row) : List String := r.fields.map (·.1)

/-- The value under a name. -/
def get? (r : Row) (name : String) : Option Value := r.fields.lookup name

/-- The row with a value written under a name. -/
def insert (r : Row) (name : String) (value : Value) : Row :=
  ⟨writeField name value r.fields, nodup_map_fst_writeField r.distinct⟩

/-- Writes a list of fields one after another. -/
def insertAll (r : Row) (fields : List (String × Value)) : Row :=
  fields.foldl (fun row field => row.insert field.1 field.2) r

/-- The row that a list of fields makes, written one after another. -/
def ofList (fields : List (String × Value)) : Row := empty.insertAll fields

/-- The fields of the first row followed by those of the second; where both have a name, the second
row's value. -/
def merge (a b : Row) : Row := a.insertAll b.fields

/-- Whether two rows hold the same values under the same names, in any order. -/
def sameFields (a b : Row) : Bool :=
  a.fields.length == b.fields.length && a.fields.all fun field => b.get? field.1 == some field.2

/-- The JSON object of a row. -/
def json (r : Row) : String :=
  Text.jsonObject (r.fields.map fun (name, value) => (name, value.json))

end Row

end PullSql
