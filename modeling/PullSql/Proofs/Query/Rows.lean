import PullSql.Proofs.Query.Wildcards
import PullSql.Proofs.Row.Merge

/-!
# Rows of a query

The rows of a query over any catalogs: whatever is called on its cursor and however the catalog changes
in between, a row that it answers is the row of its targets where each source stands at some name
(`exists_answerRow_of_fetch`). Targets with distinct names each have their value in it
(`get?_answerRow_of_mem`).
-/

namespace PullSql.Query

open Sql (Select)

theorem map_fst_answer (refs : List String) (ts : List Target) (names : List String) :
    (ts.map fun t => (t.1, t.2.value fun x => (lookup? refs names x).getD .null)).map (·.1) =
      ts.map (·.1) := by
  rw [List.map_map]
  rfl

theorem names_answerRow (refs : List String) (ts : List Target) (names : List String) :
    (answerRow refs ts names).names = (ts.map (·.1)).eraseDups := by
  rw [answerRow, Row.names_ofList, map_fst_answer]

theorem get?_answerRow_of_mem (refs : List String) {ts : List Target} (names : List String)
    (hn : (ts.map (·.1)).Nodup) {t : Target} (ht : t ∈ ts) :
    (answerRow refs ts names).get? t.1 =
      some (t.2.value fun x => (lookup? refs names x).getD .null) := by
  rw [← map_fst_answer refs ts names] at hn
  exact Row.get?_ofList_of_mem hn (List.mem_map_of_mem ht)

/-- A row that is fetched after any calls is that of the targets, at the names where the sources stand
in the row that is fetched from them at that moment. -/
theorem exists_answerRow_of_fetch {db : Database} {query : Select} {cursor : Cursor}
    (h : db.execute (.select query) = .ok cursor) (ks : List (Catalog × Call)) {catalog : Catalog}
    {row : Row} (hr : ((cursor.calls ks).fetch catalog).1 = some row) :
    let refs := query.sources.map (·.reference)
    ∃ names, names.length = refs.length ∧
      row = answerRow refs (targets db.settings.columnStem refs query.items) names ∧
      ∃ d ∈ (cursor.calls ks).inputs, (d.fetch catalog).1 = some (joinedRow refs names) := by
  intro refs
  obtain ⟨columns, rfl, hc⟩ := execute_select_eq_ok h
  obtain ⟨d, hd, input, hinput, hmakes, rfl⟩ := Cursor.exists_input_of_fetch
    ((Cursor.isMade_ofPlan _ _).calls ks) (Cursor.plan_calls _ ks) hr
  obtain ⟨names, hlength, rfl⟩ := exists_names_of_makes hmakes
  exact ⟨names, hlength, project_joinedRow hc hlength, d, hd, hinput⟩

end PullSql.Query
