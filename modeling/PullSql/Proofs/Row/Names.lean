import Mathlib.Data.List.Nodup
import PullSql.Plan

/-!
# Names of rows and schemas

A schema lists names with repetitions, a row has each name once, where it was written first. `Fits`
says that the names of a row are those of a schema without the later repetitions; every way to make
rows from rows keeps this against the schema that goes with it.
-/

namespace PullSql

/-! ## Lists without later repetitions -/

section EraseDups

variable {α : Type} [BEq α]

/-- Induction along `List.eraseDups`, which goes on behind an element without its repetitions. -/
theorem eraseDups_induction {motive : List α → Prop} (nil : motive [])
    (cons : ∀ a l, motive (l.filter fun b => !b == a) → motive (a :: l)) (l : List α) : motive l := by
  induction hn : l.length using Nat.strongRecOn generalizing l with
  | ind n ih =>
    cases l with
    | nil => exact nil
    | cons a l =>
      refine cons a l (ih _ ?_ _ rfl)
      rw [← hn]
      exact Nat.lt_succ_of_le (List.length_filter_le _ l)

variable [LawfulBEq α]

theorem filter_eraseDups (p : α → Bool) (l : List α) :
    l.eraseDups.filter p = (l.filter p).eraseDups := by
  induction l using eraseDups_induction with
  | nil => rfl
  | cons a l ih =>
    rw [List.eraseDups_cons]
    by_cases h : p a
    · rw [List.filter_cons_of_pos h, List.filter_cons_of_pos h, List.eraseDups_cons, ih,
        List.filter_filter, List.filter_filter]
      simp only [Bool.and_comm]
    · rw [List.filter_cons_of_neg h, List.filter_cons_of_neg h, ih, List.filter_filter]
      congr 1
      refine List.filter_congr fun b _ => ?_
      by_cases hb : b = a
      · simp [hb, h]
      · simp [hb]

theorem eraseDups_of_nodup {l : List α} (h : l.Nodup) : l.eraseDups = l := by
  induction l with
  | nil => rfl
  | cons a l ih =>
    obtain ⟨ha, hl⟩ := List.nodup_cons.mp h
    have hf : (l.filter fun b => !b == a) = l := by
      refine List.filter_eq_self.mpr fun b hb => ?_
      have hne : b ≠ a := fun e => ha (e ▸ hb)
      simpa using hne
    rw [List.eraseDups_cons, hf, ih hl]

theorem nodup_eraseDups (l : List α) : l.eraseDups.Nodup := by
  induction l using eraseDups_induction with
  | nil => exact List.nodup_nil
  | cons a l ih =>
    rw [List.eraseDups_cons, List.nodup_cons]
    refine ⟨fun h => ?_, ih⟩
    rw [List.mem_eraseDups, List.mem_filter] at h
    simp at h

theorem eraseDups_eraseDups_append (l m : List α) :
    (l.eraseDups ++ m).eraseDups = (l ++ m).eraseDups := by
  have h : m.removeAll l.eraseDups = m.removeAll l := by
    refine List.filter_congr fun b _ => ?_
    rw [Bool.eq_iff_iff]
    simp [List.mem_eraseDups]
  rw [List.eraseDups_append, List.eraseDups_append, eraseDups_of_nodup (nodup_eraseDups l), h]

theorem eraseDups_append_eraseDups (l m : List α) :
    (l ++ m.eraseDups).eraseDups = (l ++ m).eraseDups := by
  have h : (m.eraseDups.removeAll l).eraseDups = (m.removeAll l).eraseDups := by
    show (m.eraseDups.filter _).eraseDups = (m.filter _).eraseDups
    rw [← filter_eraseDups, eraseDups_of_nodup (nodup_eraseDups m), filter_eraseDups]
  rw [List.eraseDups_append, List.eraseDups_append, h]

theorem eraseDups_map {β : Type} [BEq β] [LawfulBEq β] {f : α → β} (hf : Function.Injective f)
    (l : List α) : (l.map f).eraseDups = l.eraseDups.map f := by
  induction l using eraseDups_induction with
  | nil => rfl
  | cons a l ih =>
    have h : ((l.map f).filter fun b => !b == f a) = (l.filter fun b => !b == a).map f := by
      rw [List.filter_map]
      congr 1
      refine List.filter_congr fun b _ => ?_
      by_cases hb : b = a
      · simp [hb]
      · simp [hb, hf.ne hb]
    rw [List.map_cons, List.eraseDups_cons, List.eraseDups_cons, h, ih, List.map_cons]

end EraseDups

/-! ## Names of rows -/

theorem Name.qualified_injective (qualifier : String) :
    Function.Injective (Name.qualified qualifier) := by
  intro a b h
  have h' := congrArg String.toList h
  simp only [Name.qualified, String.toList_append, List.append_cancel_left_eq] at h'
  exact String.toList_inj.mp h'

namespace Row

theorem names_nodup (r : Row) : r.names.Nodup := r.distinct

theorem names_insert (r : Row) (name : String) (value : Value) :
    (r.insert name value).names = (r.names ++ [name]).eraseDups := by
  by_cases h : name ∈ r.names
  · have h1 : (r.insert name value).names = r.names := map_fst_writeField_of_mem value h
    have h2 : [name].removeAll r.names = [] := by simp [List.removeAll, h]
    rw [h1, List.eraseDups_append, h2, eraseDups_of_nodup r.names_nodup, List.eraseDups_nil,
      List.append_nil]
  · have h1 : (r.insert name value).names = r.names ++ [name] :=
      map_fst_writeField_of_not_mem value h
    have hd : (r.names ++ [name]).Nodup := h1 ▸ names_nodup (r.insert name value)
    rw [h1, eraseDups_of_nodup hd]

/-- The written names stand behind those of the row, each where it comes first. -/
theorem names_insertAll (r : Row) (fields : List (String × Value)) :
    (r.insertAll fields).names = (r.names ++ fields.map (·.1)).eraseDups := by
  induction fields generalizing r with
  | nil => rw [List.map_nil, List.append_nil, eraseDups_of_nodup r.names_nodup]; rfl
  | cons field fields ih =>
    show ((r.insert field.1 field.2).insertAll fields).names = _
    rw [ih, names_insert, eraseDups_eraseDups_append, List.map_cons, List.append_assoc,
      List.singleton_append]

theorem names_merge (a b : Row) : (a.merge b).names = (a.names ++ b.names).eraseDups :=
  names_insertAll a b.fields

theorem names_ofList (fields : List (String × Value)) :
    (ofList fields).names = (fields.map (·.1)).eraseDups := names_insertAll empty fields

theorem names_rename (qualifier : String) (r : Row) :
    (r.rename qualifier).names =
      (r.names ++ r.names.map (Name.qualified qualifier)).eraseDups := by
  rw [rename, names_insertAll, List.map_map, names, List.map_map]
  rfl

/-- A name of a row has a value. -/
theorem isSome_get? {r : Row} {name : String} (h : name ∈ r.names) : (r.get? name).isSome := by
  obtain ⟨field, hf, rfl⟩ := List.mem_map.mp h
  rw [get?, List.lookup_isSome_iff]
  exact ⟨field, hf, by simp⟩

theorem get?_eq_none {r : Row} {name : String} (h : name ∉ r.names) : r.get? name = none := by
  rw [get?, List.lookup_eq_none_iff]
  intro field hf
  have hne : name ≠ field.1 := fun e => h (e ▸ List.mem_map_of_mem hf)
  simpa using hne

/-! ## Rows that fit a schema -/

/-- The names of the row are those of the schema, without the later repetitions. -/
def Fits (r : Row) (s : Schema) : Prop := r.names = s.names.eraseDups

theorem fits_single (value : Value) (type : DataType) :
    (single value).Fits [⟨Plan.valueField, type⟩] := rfl

theorem fits_ofName (name : String) : (ofName name).Fits Catalog.scanSchema := rfl

theorem Fits.rename {r : Row} {s : Schema} (h : r.Fits s) (qualifier : String) :
    (r.rename qualifier).Fits (s ++ s.qualify qualifier) := by
  have hs : (s.qualify qualifier).names = s.names.map (Name.qualified qualifier) := by
    simp [Schema.names, Schema.qualify]
  have hn : (s ++ s.qualify qualifier).names =
      s.names ++ s.names.map (Name.qualified qualifier) := by
    rw [← hs, Schema.names, List.map_append]; rfl
  rw [Fits, hn, names_rename, h, ← eraseDups_map (Name.qualified_injective qualifier),
    eraseDups_eraseDups_append, eraseDups_append_eraseDups]

theorem Fits.merge {a b : Row} {s t : Schema} (ha : a.Fits s) (hb : b.Fits t) :
    (a.merge b).Fits (s ++ t) := by
  have hn : (s ++ t).names = s.names ++ t.names := List.map_append
  rw [Fits, hn, names_merge, ha, hb, eraseDups_eraseDups_append, eraseDups_append_eraseDups]

theorem fits_project (columns : List Column) (r : Row) :
    (r.project columns).Fits (columns.map (·.field)) := by
  rw [Fits, project, names_ofList, List.map_map, Schema.names, List.map_map]
  rfl

end Row

end PullSql
