import PullSql.Database
import PullSql.Proofs.Cursor.Replay
import PullSql.Proofs.Query.Sources

/-!
# The answer of a query

What a SELECT statement answers is said here without plans and cursors: there is one row for every
choice of a name for each source, and in it the value of every target, written one after another. A
query that plans answers exactly this (`fetched_rows_answer_query`).
-/

namespace PullSql.Query

open Catalog (identifierField)
open Sql (Expr Select SelectItem Source Statement)

/-! ## Targets -/

/-- The targets that an item of the select list stands for, with its position in the list. -/
def itemTargets (stem : String) (refs : List String) : SelectItem × Nat → List Target
  | (.all, _) => refs.map fun r => Target.ofField (Name.qualified r identifierField)
  | (.allOf reference, _) => [Target.ofField (Name.qualified reference identifierField)]
  | (.expr e (some name), _) => [(name, e)]
  | (.expr (.field name) none, _) => [(name, .field name)]
  | (.expr e none, index) => [(stem ++ toString index, e)]

/-- The targets of a query. -/
def targets (stem : String) (refs : List String) (items : List SelectItem) : List Target :=
  items.zipIdx.flatMap (itemTargets stem refs)

/-- The row that the targets make where the sources stand at these names. -/
def answerRow (refs : List String) (targets : List Target) (names : List String) : Row :=
  Row.ofList (targets.map fun t => (t.1, t.2.value fun x => (lookup? refs names x).getD .null))

/-! ## From items to targets -/

theorem isQualified_qualified (qualifier name : String) :
    Name.isQualified (Name.qualified qualifier name) := by
  simp [Name.isQualified, Name.qualified]

/-- Of the fields of the sources, those under a reference are qualified. -/
theorem filter_isQualified_joined (refs : List String) :
    ((joined refs).schema.filter (·.isQualified)).map (·.name) =
      refs.map fun r => Name.qualified r identifierField := by
  cases refs with
  | nil => decide
  | cons first rest =>
    rw [schema_joined_cons]
    induction first :: rest with
    | nil => rfl
    | cons r refs ih =>
      have hi : Field.isQualified ⟨identifierField, .text⟩ = false := by decide
      have hr : Field.isQualified ⟨Name.qualified r identifierField, .text⟩ = true :=
        isQualified_qualified r identifierField
      rw [List.flatMap_cons, List.filter_append, List.map_append, ih, sourceFields,
        List.filter_cons_of_neg (by simp [hi]), List.filter_cons_of_pos hr]
      rfl

theorem targets_eq_ok {catalog : Catalog} {settings : Settings} {sources : List Source}
    {item : SelectItem × Nat} {ts : List Target}
    (h : catalog.targets settings sources (joined (sources.map (·.reference))).schema item.1 item.2 =
      .ok ts) :
    ts = itemTargets settings.columnStem (sources.map (·.reference)) item := by
  rcases item with ⟨_ | reference | ⟨e, name?⟩, index⟩
  · cases h
    have hn := congrArg (List.map Target.ofField)
      (filter_isQualified_joined (sources.map (·.reference)))
    simpa [itemTargets, Function.comp_def] using hn
  · unfold Catalog.targets at h
    dsimp only at h
    split at h
    · cases h
      rfl
    · cases h
  · cases h
    cases name? with
    | some name => rfl
    | none => cases e <;> rfl

theorem selectTargets_eq_ok {catalog : Catalog} {settings : Settings} {query : Select}
    {source : Plan} {ts : List Target}
    (h : catalog.selectTargets settings query = .ok (source, ts)) :
    let refs := query.sources.map (·.reference)
    source = joined refs ∧ ts = targets settings.columnStem refs query.items := by
  unfold Catalog.selectTargets at h
  obtain ⟨source, hs, h1⟩ := bind_eq_ok_iff.mp h
  obtain ⟨tss, ht, h2⟩ := bind_eq_ok_iff.mp h1
  obtain rfl := planSources_eq_ok hs
  obtain rfl := eq_map_of_mapM_eq_ok (fun _ _ => targets_eq_ok) ht
  cases h2
  exact ⟨rfl, rfl⟩

theorem planSelect_eq_ok {catalog : Catalog} {settings : Settings} {query : Select} {p : Plan}
    (h : catalog.planSelect settings query = .ok p) :
    let refs := query.sources.map (·.reference)
    ∃ columns, p = .project columns (joined refs) ∧
      Column.compileAll (joined refs).schema (targets settings.columnStem refs query.items) =
        .ok columns := by
  unfold Catalog.planSelect at h
  obtain ⟨⟨source, ts⟩, ht, h1⟩ := bind_eq_ok_iff.mp h
  obtain ⟨columns, hc, h2⟩ := bind_eq_ok_iff.mp h1
  obtain ⟨rfl, rfl⟩ := selectTargets_eq_ok ht
  cases h2
  exact ⟨columns, rfl, hc⟩

/-! ## From targets to rows -/

/-- Columns compiled over the sources make the row of their targets. -/
theorem project_joinedRow {refs names : List String} {ts : List Target} {columns : List Column}
    (h : Column.compileAll (joined refs).schema ts = .ok columns)
    (hn : names.length = refs.length) :
    (joinedRow refs names).project columns = answerRow refs ts names := by
  have hf : columns.map (fun c => (c.name, c.evaluator.evaluate (joinedRow refs names))) =
      ts.map fun t => (t.1, t.2.value fun x => (lookup? refs names x).getD .null) := by
    induction mapM_eq_ok_iff.mp h with
    | nil => rfl
    | @cons t c _ _ ht hs ih =>
      obtain ⟨h1, h2⟩ := Column.compile_eq_ok.mp ht
      rw [List.map_cons, List.map_cons, ih (mapM_eq_ok_iff.mpr hs), h1,
        Column.evaluate_eq_value h2, readField_joinedRow hn]
  rw [Row.project, hf, answerRow]

/-- Every name in a target has a meaning. -/
theorem isSome_lookup?_of_mem_targets {refs names : List String} {ts : List Target}
    {columns : List Column} (h : Column.compileAll (joined refs).schema ts = .ok columns)
    (hn : names.length = refs.length) {t : Target} (ht : t ∈ ts) {x : String} (hx : x ∈ t.2.names) :
    (lookup? refs names x).isSome := by
  induction mapM_eq_ok_iff.mp h with
  | nil => cases ht
  | cons hc hs ih =>
    rcases List.mem_cons.mp ht with rfl | ht
    · exact isSome_lookup? hn
        (Column.isSome_resolve?_of_mem_names (Column.compile_eq_ok.mp hc).2 hx)
    · exact ih (mapM_eq_ok_iff.mpr hs) ht

/-- A query that plans has one row for every choice of names, the name of the last source changing
fastest. -/
theorem rows_project_joined {refs : List String} {ts : List Target} {columns : List Column}
    (h : Column.compileAll (joined refs).schema ts = .ok columns) (catalog : Catalog) :
    (Plan.project columns (joined refs)).rows catalog =
      (tuples catalog.scanNames refs.length).map (answerRow refs ts) := by
  rw [Plan.rows, rows_joined, List.map_map]
  exact List.map_congr_left fun names hn => project_joinedRow h (length_of_mem_tuples hn)

/-- The cursor of a query is a new one on columns over its sources. -/
theorem execute_select_eq_ok {db : Database} {query : Select} {cursor : Cursor}
    (h : db.execute (.select query) = .ok cursor) :
    let refs := query.sources.map (·.reference)
    ∃ columns, cursor = .ofPlan db.catalog (.project columns (joined refs)) ∧
      Column.compileAll (joined refs).schema (targets db.settings.columnStem refs query.items) =
        .ok columns := by
  obtain ⟨p, hp, h⟩ := bind_eq_ok_iff.mp h
  cases h
  obtain ⟨columns, rfl, hc⟩ := planSelect_eq_ok hp
  exact ⟨columns, rfl, hc⟩

theorem drain_execute_select {db : Database} {query : Select} {cursor : Cursor}
    (h : db.execute (.select query) = .ok cursor) :
    let refs := query.sources.map (·.reference)
    (cursor.drain db.catalog).1 = (tuples db.catalog.scanNames refs.length).map
      (answerRow refs (targets db.settings.columnStem refs query.items)) := by
  obtain ⟨columns, rfl, hc⟩ := execute_select_eq_ok h
  rw [Cursor.drain_ofPlan, rows_project_joined hc]

/-- **The answer of a query.** When a SELECT statement plans, its cursor drains to one row for every
choice of a name of the catalog for each source, the name of the last source changing fastest; its
fetches answer these rows one after another and then nothing. The row holds the values of the targets
where the sources stand at these names, and every name in a target means something there. -/
theorem fetched_rows_answer_query {db : Database} {query : Select} {cursor : Cursor}
    (h : db.execute (.select query) = .ok cursor) :
    let refs := query.sources.map (·.reference)
    let ts := targets db.settings.columnStem refs query.items
    let choices := tuples db.catalog.scanNames refs.length
    (cursor.drain db.catalog).1 = choices.map (answerRow refs ts) ∧
      (∀ k, cursor.nth db.catalog k = (choices.map (answerRow refs ts))[k]?) ∧
      ∀ t ∈ ts, ∀ x ∈ t.2.names, ∀ names ∈ choices, (lookup? refs names x).isSome := by
  intro refs ts choices
  refine ⟨drain_execute_select h, fun k => ?_, fun t ht x hx names hn => ?_⟩ <;>
    obtain ⟨columns, rfl, hc⟩ := execute_select_eq_ok h
  · rw [Cursor.nth_ofPlan, rows_project_joined hc]
  · exact isSome_lookup?_of_mem_targets hc (length_of_mem_tuples hn) ht hx

/-- Two sources whose references differ in letter case only: the field under the second reference is
read from the first source. -/
theorem fetched_rows_answer_query_of_two_sources :
    let db : Database := { catalog := { relations := [⟨"a", []⟩] } }
    let query : Select := ⟨[.allOf "T", .expr (.field "identifier") none, .expr (.text "x") none],
      some [⟨"tables", some "t"⟩, ⟨"TABLES", some "T"⟩]⟩
    let row := fun first last : String => Row.ofList
      [("T.IDENTIFIER", .text first), ("identifier", .text last), ("col2", .text "x")]
    ∃ cursor, db.execute (.select query) = .ok cursor ∧
      (cursor.drain db.catalog).1 =
        [row "TABLES" "TABLES", row "TABLES" "a", row "a" "TABLES", row "a" "a"] := by
  intro db query row
  have hok : (db.execute (.select query)).isOk := by decide
  rcases h : db.execute (.select query) with e | cursor
  · rw [h] at hok
    cases hok
  · exact ⟨cursor, rfl, (fetched_rows_answer_query h).1.trans (by decide)⟩

end PullSql.Query
