import PullSql.Proofs.Plan.Types
import PullSql.Proofs.Query.Rows

/-!
# Types of the columns of a query

Under every source, and under every join of sources, all fields are texts, so the rows that a query
reads are typed by their schema whatever their names. With distinct output names each column then holds
a value of its type, and in a NUMBER column a text only where texts are put together.

Main statement: `fetched_values_have_column_types`.
-/

namespace PullSql.Query

open Sql (Expr Select)

/-! ## Sources -/

/-- A plan whose rows are typed by a schema of texts. -/
structure OfTexts (p : Plan) : Prop where
  wellFormed : p.WellFormed
  wellTyped : p.WellTyped
  text : ∀ f ∈ p.schema, f.type = .text

theorem ofTexts_scanAs (reference : String) : OfTexts (scanAs reference) := by
  have ht : ∀ f ∈ (scanAs reference).schema, f.type = .text := by
    simp [schema_scanAs, sourceFields]
  exact ⟨trivial, ⟨Schema.consistent_of_forall_type ht, trivial⟩, ht⟩

theorem OfTexts.join {left right : Plan} (hl : OfTexts left) (hr : OfTexts right) :
    OfTexts (.join left right) := by
  have ht : ∀ f ∈ (Plan.join left right).schema, f.type = .text :=
    List.forall_mem_append.mpr ⟨hl.text, hr.text⟩
  exact ⟨⟨hl.wellFormed, hr.wellFormed⟩,
    ⟨Schema.consistent_of_forall_type ht, hl.wellTyped, hr.wellTyped⟩, ht⟩

/-- The induction is on the sources still to be joined; `p` is what the join has so far. -/
theorem OfTexts.foldl_join {p : Plan} (h : OfTexts p) (refs : List String) :
    OfTexts ((refs.map scanAs).foldl .join p) := by
  induction refs generalizing p with
  | nil => exact h
  | cons reference refs ih => exact ih (h.join (ofTexts_scanAs reference))

theorem wellFormed_and_wellTyped_joined (refs : List String) :
    (joined refs).WellFormed ∧ (joined refs).WellTyped := by
  cases refs with
  | nil => exact ⟨trivial, .inr rfl⟩
  | cons first rest =>
    have h := (ofTexts_scanAs first).foldl_join rest
    exact ⟨h.wellFormed, h.wellTyped⟩

/-! ## Columns -/

/-- With distinct names the columns of a query type its rows. -/
theorem typed_of_makes {refs : List String} {ts : List Target} {columns : List Column}
    (hc : Column.compileAll (joined refs).schema ts = .ok columns)
    (hn : (Plan.project columns (joined refs)).schema.names.Nodup) {row : Row}
    (h : (Plan.project columns (joined refs)).Makes row) :
    row.Typed (Plan.project columns (joined refs)).schema := by
  obtain ⟨hformed, htyped⟩ := wellFormed_and_wellTyped_joined refs
  exact h.typed ⟨⟨ts, hc⟩, hformed⟩ ⟨Schema.consistent_of_nodup hn, htyped⟩

section Columns

variable {db : Database} {query : Select} {cursor : Cursor}

/-- **Types of columns.** Let the output names of a query be distinct. In every row that is fetched
after any calls, each over a catalog of its own, every column holds a value under its name: an integer
in an INTEGER column, a double in a DOUBLE column, a text in a TEXT or STRING column. A NUMBER column
holds a text only if its expression is nothing but sums of names and text literals. -/
theorem fetched_values_have_column_types (h : db.execute (.select query) = .ok cursor)
    (hn : cursor.schema.names.Nodup) (ks : List (Catalog × Call)) {catalog : Catalog} {row : Row}
    (hr : ((cursor.calls ks).fetch catalog).1 = some row) {i : Nat} {f : Field}
    (hf : cursor.schema[i]? = some f) :
    let refs := query.sources.map (·.reference)
    let ts := targets db.settings.columnStem refs query.items
    ∃ e v, ts[i]? = some (f.name, e) ∧ row.get? f.name = some v ∧
      (f.type = .integer → ∃ n, v = .integer n) ∧
      (f.type = .double → ∃ d, v = .double d) ∧
      (f.type = .text ∨ f.type = .string → ∃ s, v = .text s) ∧
      (f.type = .number → ∀ s, v = .text s → e.isConcatenation) := by
  intro refs ts
  obtain ⟨names, -, hrow, -⟩ := exists_answerRow_of_fetch h ks hr
  obtain ⟨columns, rfl, hc⟩ := execute_select_eq_ok h
  have hmakes := Cursor.makes_of_fetch ((Cursor.isMade_ofPlan _ _).calls ks) hr
  rw [Cursor.plan_calls] at hmakes
  obtain ⟨column, hcolumn, rfl⟩ := Option.map_eq_some_iff.mp (List.getElem?_map ▸ hf)
  obtain ⟨e, he, -⟩ := Column.exists_target_of_getElem? hc hcolumn
  have hnames : (ts.map (·.1)).Nodup := Column.names_map_field hc ▸ hn
  have hv := get?_answerRow_of_mem refs names hnames (List.mem_of_getElem? he)
  rw [← hrow] at hv
  have hadmits := typed_of_makes hc hn hmakes column.field (List.mem_of_getElem? hf) _ hv
  refine ⟨e, _, he, hv, fun ht => ?_, fun ht => ?_, fun ht => hadmits.text ht, fun _ s hs => ?_⟩
  · rw [ht] at hadmits
    exact hadmits.integer
  · rw [ht] at hadmits
    exact hadmits.double
  · exact Expr.isConcatenation_of_value_eq_text hs

end Columns

/-- A sum of texts, a placeholder and a field over a join that is reset when the catalog has grown. -/
theorem fetched_values_have_column_types_of_join :
    let db : Database := {}
    let query : Select := ⟨[.expr (.binary .add (.field "t.identifier") (.text "!")) (some "a"),
      .expr (.parameter 0) (some "b"), .expr (.field "U.identifier") none],
      some [⟨"tables", some "t"⟩, ⟨"TABLES", some "u"⟩]⟩
    let cursor := Cursor.ofPlan {} (.project
      [⟨"a", .number, .binary .add (.field "t.IDENTIFIER") (.constant (.text "!"))⟩,
        ⟨"b", .integer, .constant (.integer 1)⟩, ⟨"U.identifier", .text, .field "u.IDENTIFIER"⟩]
      (joined ["t", "u"]))
    let catalog : Catalog := { relations := [⟨"r", []⟩] }
    let ks : List (Catalog × Call) := [({}, .fetch), (catalog, .reset), (catalog, .fetch)]
    let row := Row.ofList [("a", .text "TABLES!"), ("b", .integer 1), ("U.identifier", .text "r")]
    db.execute (.select query) = .ok cursor ∧ cursor.schema.names.Nodup ∧
      ((cursor.calls ks).fetch catalog).1 = some row ∧
      (∃ (e : Expr) (v : Value), row.get? "a" = some v ∧ ∀ s, v = .text s → e.isConcatenation) ∧
      (∃ n, row.get? "b" = some (.integer n)) ∧ ∃ s, row.get? "U.identifier" = some (.text s) := by
  intro db query cursor catalog ks row
  have h : db.execute (.select query) = .ok cursor := by
    refine bind_eq_ok_iff.mpr ⟨cursor.plan, ?_, rfl⟩
    subst db query cursor
    rfl
  have hn : cursor.schema.names.Nodup := by decide
  have hr : ((cursor.calls ks).fetch catalog).1 = some row := by decide
  refine ⟨h, hn, hr, ?_, ?_, ?_⟩
  · obtain ⟨e, v, -, hv, -, -, -, htext⟩ :=
      fetched_values_have_column_types h hn ks hr (i := 0) (f := ⟨"a", .number⟩) rfl
    exact ⟨e, v, hv, htext rfl⟩
  · obtain ⟨-, v, -, hv, hinteger, -⟩ :=
      fetched_values_have_column_types h hn ks hr (i := 1) (f := ⟨"b", .integer⟩) rfl
    obtain ⟨n, rfl⟩ := hinteger rfl
    exact ⟨n, hv⟩
  · obtain ⟨-, v, -, hv, -, -, htext, -⟩ :=
      fetched_values_have_column_types h hn ks hr (i := 2) (f := ⟨"U.identifier", .text⟩) rfl
    obtain ⟨s, rfl⟩ := htext (.inl rfl)
    exact ⟨s, hv⟩

end PullSql.Query
