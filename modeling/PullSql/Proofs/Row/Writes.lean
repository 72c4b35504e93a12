import Mathlib.Data.List.Induction
import PullSql.Proofs.Row.Merge

/-!
# Rows as what writes leave

1. Writes make the lists of fields with distinct names and no others (`isWritten_iff_nodup`). A row is
   any such list, and its own fields, written one after another, make it again (`ofList_fields`).
2. Writing into a row merges it with the row that the same writes make of nothing
   (`insertAll_eq_merge`), so a merge runs the writes of both rows, the second ones behind the first
   ones (`ofList_append`, `merge_eq_ofList`).
3. Under merging rows are a monoid in which a row merged with itself stays as it is. The first row to
   have a name gives its place and the last one its value (`merge_right_biased_monoid`).
-/

namespace PullSql

/-- The lists of fields that writes make of nothing. -/
inductive IsWritten : List (String × Value) → Prop
  | nil : IsWritten []
  | write {fields : List (String × Value)} (name : String) (value : Value) (h : IsWritten fields) :
      IsWritten (writeField name value fields)

section Written

variable {fields : List (String × Value)}

theorem IsWritten.nodup (h : IsWritten fields) : (fields.map (·.1)).Nodup := by
  induction h with
  | nil => exact List.nodup_nil
  | write name value _ ih => exact nodup_map_fst_writeField ih

/-- Fields with distinct names are written from the first one to the last one, each behind the
others. -/
theorem isWritten_of_nodup (h : (fields.map (·.1)).Nodup) : IsWritten fields := by
  induction fields using List.reverseRecOn with
  | nil => exact .nil
  | append_singleton fields field ih =>
    rw [List.map_append, List.map_singleton, List.nodup_append] at h
    obtain ⟨hf, -, hd⟩ := h
    have hn : field.1 ∉ fields.map (·.1) := fun hm => hd _ hm _ List.mem_cons_self rfl
    rw [← writeField_of_not_mem field.2 hn]
    exact .write field.1 field.2 (ih hf)

theorem isWritten_iff_nodup : IsWritten fields ↔ (fields.map (·.1)).Nodup :=
  ⟨IsWritten.nodup, isWritten_of_nodup⟩

end Written

namespace Row

theorem ofList_fields (r : Row) : ofList r.fields = r := empty_merge r

theorem insertAll_eq_merge (r : Row) (fields : List (String × Value)) :
    r.insertAll fields = r.merge (ofList fields) := by
  refine eq_of_names ?_ fun name => ?_
  · rw [names_insertAll, names_merge, names_ofList, eraseDups_append_eraseDups]
  · rw [get?_insertAll, get?_merge, get?_ofList]

theorem ofList_append (fields others : List (String × Value)) :
    ofList (fields ++ others) = (ofList fields).merge (ofList others) := by
  rw [← insertAll_eq_merge]
  exact List.foldl_append

/-- A merge writes the fields of both rows into a new one. -/
theorem merge_eq_ofList (a b : Row) : a.merge b = ofList (a.fields ++ b.fields) := by
  rw [ofList_append, ofList_fields, ofList_fields]

/-- Names keep the place where they come first and the value that comes last; both rules, and so
merging, are associative, with the row without fields on either side as its unit. -/
theorem merge_right_biased_monoid :
    (∀ fields, IsWritten fields ↔ (fields.map (·.1)).Nodup) ∧
    (∀ a b : Row, a.merge b = ofList (a.fields ++ b.fields) ∧
      (a.merge b).names.Nodup ∧
      (a.merge b).names = a.names ++ b.names.filter (· ∉ a.names) ∧
      ∀ name, (a.merge b).get? name = (if name ∈ b.names then b else a).get? name) ∧
    (∀ a b c : Row, (a.merge b).merge c = a.merge (b.merge c)) ∧
    ∀ a : Row, empty.merge a = a ∧ a.merge empty = a ∧ a.merge a = a := by
  refine ⟨fun fields => isWritten_iff_nodup, fun a b => ?_, merge_assoc, fun a => ?_⟩
  · exact ⟨merge_eq_ofList a b, names_nodup _, names_merge_eq_append a b, get?_merge_eq_ite a b⟩
  · exact ⟨empty_merge a, merge_empty a, merge_self a⟩

/-- A field that both rows have keeps its place in the first one and takes its value from the second
one. -/
example : (ofList [("a", .integer 1), ("b", .integer 2)]).merge
      (ofList [("b", .integer 20), ("c", .integer 30)]) =
    ofList [("a", .integer 1), ("b", .integer 20), ("c", .integer 30)] := by decide

end Row

end PullSql
