import Mathlib.Data.List.Nodup
import PullSql.Proofs.Row.Names

/-!
# Values of rows

What stands under a name after a row was written to: the last value that was written there, else what
the row had before.
-/

namespace PullSql

/-! ## Lists of fields -/

theorem lookup_cons_eq_ite {β : Type} (field : String × β) (fields : List (String × β))
    (x : String) :
    (field :: fields).lookup x = if x = field.1 then some field.2 else fields.lookup x := by
  rw [List.lookup_cons]
  by_cases hx : x = field.1
  · simp [hx]
  · simp [hx, beq_false_of_ne hx]

section Fields

variable (name : String) (value : Value) (fields : List (String × Value)) (x : String)

theorem lookup_writeField :
    (writeField name value fields).lookup x =
      if x = name then some value else fields.lookup x := by
  induction fields with
  | nil => rw [writeField, lookup_cons_eq_ite]
  | cons field fields ih =>
    rw [writeField]
    by_cases hf : field.1 = name
    · rw [if_pos hf, lookup_cons_eq_ite, lookup_cons_eq_ite, hf]
      split <;> rfl
    · rw [if_neg hf, lookup_cons_eq_ite, lookup_cons_eq_ite, ih]
      by_cases hx : x = field.1
      · have hn : x ≠ name := fun e => hf (hx.symm.trans e)
        rw [if_pos hx, if_neg hn, if_pos hx]
      · rw [if_neg hx, if_neg hx]

/-- With distinct names it does not matter from which end a name is looked up. -/
theorem lookup_reverse (h : (fields.map (·.1)).Nodup) :
    fields.reverse.lookup x = fields.lookup x := by
  induction fields with
  | nil => rfl
  | cons field fields ih =>
    obtain ⟨hf, hs⟩ := List.nodup_cons.mp h
    rw [List.reverse_cons, List.lookup_append, ih hs, lookup_cons_eq_ite, lookup_cons_eq_ite]
    by_cases hx : x = field.1
    · have hn : fields.lookup x = none := by
        rw [List.lookup_eq_none_iff]
        intro f hm
        have hne : x ≠ f.1 := by
          rintro rfl
          have hm' : f.1 ∈ fields.map (·.1) := List.mem_map_of_mem hm
          rw [hx] at hm'
          exact hf hm'
        simpa using hne
      rw [hn, if_pos hx, if_pos hx, Option.none_or]
    · rw [if_neg hx, if_neg hx, List.lookup_nil, Option.or_none]

end Fields

/-! ## Rows -/

namespace Row

theorem get?_insert (r : Row) (name : String) (value : Value) (x : String) :
    (r.insert name value).get? x = if x = name then some value else r.get? x :=
  lookup_writeField name value r.fields x

theorem get?_insertAll (r : Row) (fields : List (String × Value)) (x : String) :
    (r.insertAll fields).get? x = (fields.reverse.lookup x).or (r.get? x) := by
  induction fields generalizing r with
  | nil => rfl
  | cons field fields ih =>
    show ((r.insert field.1 field.2).insertAll fields).get? x = _
    rw [ih, get?_insert, List.reverse_cons, List.lookup_append, Option.or_assoc,
      lookup_cons_eq_ite, List.lookup_nil]
    split <;> rfl

theorem get?_ofList (fields : List (String × Value)) (x : String) :
    (ofList fields).get? x = fields.reverse.lookup x := by
  have he : empty.get? x = none := rfl
  rw [ofList, get?_insertAll, he, Option.or_none]

/-- What stands under a name was written, or stood there before. -/
theorem mem_or_of_get?_insertAll {r : Row} {fields : List (String × Value)} {x : String}
    {value : Value} (h : (r.insertAll fields).get? x = some value) :
    (x, value) ∈ fields ∨ r.get? x = some value := by
  rw [get?_insertAll, Option.or_eq_some_iff] at h
  refine h.imp (fun h => ?_) And.right
  obtain ⟨before, after, hf, -⟩ := List.lookup_eq_some_iff.mp h
  rw [← List.mem_reverse, hf]
  exact List.mem_append_right _ List.mem_cons_self

/-- The second row of a merge is looked at first. -/
theorem get?_merge (a b : Row) (x : String) : (a.merge b).get? x = (b.get? x).or (a.get? x) := by
  rw [merge, get?_insertAll, lookup_reverse _ _ b.distinct]
  rfl

theorem get?_merge_eq_ite (a b : Row) (x : String) :
    (a.merge b).get? x = (if x ∈ b.names then b else a).get? x := by
  rw [get?_merge]
  by_cases hx : x ∈ b.names
  · obtain ⟨v, hv⟩ := Option.isSome_iff_exists.mp (isSome_get? hx)
    rw [if_pos hx, hv, Option.some_or]
  · rw [if_neg hx, get?_eq_none hx, Option.none_or]

/-- In a chain of merges the last row that has the name gives the value. -/
theorem get?_foldl_merge (a : Row) (rows : List Row) (x : String) :
    (rows.foldl merge a).get? x = (rows.reverse.findSome? (·.get? x)).or (a.get? x) := by
  induction rows generalizing a with
  | nil => rfl
  | cons b rows ih =>
    rw [List.foldl_cons, ih, get?_merge, List.reverse_cons, List.findSome?_append,
      List.findSome?_singleton, Option.or_assoc]

theorem get?_ofName (name : String) (x : String) :
    (ofName name).get? x = if x = Catalog.identifierField then some (.text name) else none :=
  get?_insert empty Catalog.identifierField (.text name) x

theorem get?_rename_ofName (qualifier name : String) (x : String) :
    ((ofName name).rename qualifier).get? x =
      if x = Catalog.identifierField ∨ x = Name.qualified qualifier Catalog.identifierField
      then some (.text name) else none := by
  have hf : (ofName name).fields = [(Catalog.identifierField, .text name)] := rfl
  rw [rename, hf, List.map_singleton, get?_insertAll, get?_ofName, List.reverse_singleton,
    lookup_cons_eq_ite, List.lookup_nil]
  by_cases hx : x = Name.qualified qualifier Catalog.identifierField
  · simp [hx]
  · simp [hx]

end Row

end PullSql
