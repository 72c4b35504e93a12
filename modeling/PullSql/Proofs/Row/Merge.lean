import PullSql.Proofs.Row.Values

/-!
# Merges of rows

A row is determined by the order of its names and the value under each of them (`eq_of_names`). Names
keep their first place (`names_merge_eq_append`) and values are the last ones written. Both rules are
associative, so merging is too (`merge_assoc`), and with it pairing every row of a list with every row
of another one (`pairs_assoc`); neither the empty row nor the row itself adds anything (`empty_merge`,
`merge_self`).
-/

namespace PullSql.Row

/-! ## Rows from their names and values -/

theorem get?_of_mem {r : Row} {field : String × Value} (h : field ∈ r.fields) :
    r.get? field.1 = some field.2 := by
  obtain ⟨fields, hd⟩ := r
  induction fields with
  | nil => exact absurd h List.not_mem_nil
  | cons f fields ih =>
    obtain ⟨hf, hd⟩ := List.nodup_cons.mp hd
    simp only [get?, lookup_cons_eq_ite]
    rcases List.mem_cons.mp h with rfl | h
    · exact if_pos rfl
    · have hm : field.1 ∈ fields.map (·.1) := List.mem_map_of_mem h
      have hne : field.1 ≠ f.1 := ne_of_mem_of_not_mem hm hf
      rw [if_neg hne]
      exact ih hd h

/-- Values that are written under distinct names all stay. -/
theorem get?_ofList_of_mem {fields : List (String × Value)} (hn : (fields.map (·.1)).Nodup)
    {field : String × Value} (h : field ∈ fields) : (ofList fields).get? field.1 = some field.2 := by
  have hr : (⟨fields, hn⟩ : Row).get? field.1 = some field.2 := get?_of_mem h
  rw [get?_ofList, lookup_reverse _ _ hn]
  exact hr

/-- The fields of a row, read off its names and values. -/
theorem map_some_fields (r : Row) :
    r.fields.map (fun field => (field.1, some field.2)) =
      r.names.map fun name => (name, r.get? name) := by
  rw [names, List.map_map]
  exact List.map_congr_left fun field h => congrArg (Prod.mk field.1) (get?_of_mem h).symm

theorem eq_of_names {r s : Row} (hn : r.names = s.names) (hv : ∀ name, r.get? name = s.get? name) :
    r = s := by
  have hinj : Function.Injective fun field : String × Value => (field.1, some field.2) := by
    rintro ⟨n, v⟩ ⟨m, w⟩ h
    simpa using h
  have hf : r.fields = s.fields := by
    refine List.map_injective_iff.mpr hinj ?_
    rw [map_some_fields, map_some_fields, hn]
    simp only [hv]
  cases r
  cases s
  simpa using hf

/-! ## Merges -/

/-- Of three rows the first one to have a name gives its place and the last one its value. -/
theorem merge_assoc (a b c : Row) : (a.merge b).merge c = a.merge (b.merge c) := by
  refine eq_of_names ?_ fun name => ?_
  · simp only [names_merge]
    rw [eraseDups_eraseDups_append, eraseDups_append_eraseDups, List.append_assoc]
  · simp only [get?_merge, Option.or_assoc]

theorem merge_empty (a : Row) : a.merge empty = a := rfl

theorem empty_merge (a : Row) : empty.merge a = a := by
  refine eq_of_names ?_ fun name => ?_
  · exact (names_merge empty a).trans (eraseDups_of_nodup a.names_nodup)
  · exact (get?_merge empty a name).trans Option.or_none

/-- The second row of a merge brings the names that the first one lacks, in its order. -/
theorem names_merge_eq_append (a b : Row) :
    (a.merge b).names = a.names ++ b.names.filter (· ∉ a.names) := by
  have hb : b.names.removeAll a.names = b.names.filter (· ∉ a.names) := by
    refine List.filter_congr fun name _ => ?_
    rw [Bool.eq_iff_iff]
    simp
  rw [names_merge, List.eraseDups_append, hb, eraseDups_of_nodup a.names_nodup,
    eraseDups_of_nodup (b.names_nodup.filter _)]

theorem merge_self (a : Row) : a.merge a = a := by
  refine eq_of_names ?_ fun name => ?_
  · have hn : a.names.filter (· ∉ a.names) = [] := List.filter_eq_nil_iff.mpr (by simp)
    rw [names_merge_eq_append, hn, List.append_nil]
  · rw [get?_merge, Option.or_self]

/-- Every row of the first list merged with every row of the second one. -/
def pairs (rows others : List Row) : List Row := rows.flatMap fun a => others.map a.merge

theorem length_pairs (rows others : List Row) :
    (pairs rows others).length = rows.length * others.length := by
  simp [pairs, List.length_flatMap, List.map_const']

theorem pairs_assoc (as bs cs : List Row) : pairs (pairs as bs) cs = pairs as (pairs bs cs) := by
  simp only [pairs, List.flatMap_assoc]
  refine List.flatMap_congr fun a _ => ?_
  rw [List.flatMap_map, List.map_flatMap]
  refine List.flatMap_congr fun b _ => ?_
  rw [List.map_map]
  exact List.map_congr_left fun c _ => merge_assoc a b c

end PullSql.Row
