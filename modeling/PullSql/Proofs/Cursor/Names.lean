import PullSql.Proofs.Cursor.Origins

/-!
# Schema and rows of a cursor agree

Whatever calls are made on a cursor and however its catalog changes, each row that it answers has the
names of its schema without the later repetitions, and each name that a compiled column reads is
there (`fetched_rows_fit_schema`).
-/

namespace PullSql.Cursor

theorem AnyHistory.wellFormed {c : Cursor} (h : AnyHistory c) : c.plan.WellFormed := by
  induction h with
  | opened _ hp => exact hp
  | rename _ _ ih => exact ih
  | join _ _ _ ihl ihr => exact ⟨ihl, ihr⟩
  | project _ hd ih =>
    obtain ⟨columns, hc, rfl⟩ := project_eq_ok hd
    exact ⟨⟨_, hc⟩, ih⟩
  | @call _ _ k _ _ ih => cases k <;> exact ih

theorem AnyHistory.wellFormed_and_heldFits {c : Cursor} (h : AnyHistory c) :
    c.plan.WellFormed ∧ Plan.HeldFits c.plan c.state :=
  ⟨h.wellFormed, Plan.HeldMade.heldFits h.isMade h.wellFormed⟩

theorem AnyHistory.fits {c : Cursor} (h : AnyHistory c) {catalog : Catalog} {row : Row}
    (hr : (c.fetch catalog).1 = some row) : row.Fits c.schema :=
  (makes_of_fetch h.isMade hr).fits h.wellFormed

/-- A row that fits the input of a projection has every name that its columns read. -/
theorem isSome_get?_of_fits {schema : Schema} {targets : List (String × Sql.Expr)}
    {columns : List Column} {column : Column} {row : Row} {name : String}
    (hc : Column.compileAll schema targets = .ok columns) (hr : row.Fits schema)
    (hcolumn : column ∈ columns) (hn : name ∈ column.evaluator.fieldNames) :
    (row.get? name).isSome := by
  obtain ⟨e, he⟩ := Column.exists_compileExpr_of_mem hc hcolumn
  have hs : name ∈ schema.names := Column.fieldNames_subset he hn
  refine Row.isSome_get? ?_
  rw [hr]
  exact List.mem_eraseDups.mpr hs

/-- **Schema and rows agree.** Each row that a cursor with any history answers has the names of its
schema without the later repetitions, in order. Every projection inside the cursor has a history of
its own, and its input's rows have a value under every name that its columns read. -/
theorem fetched_rows_fit_schema {c : Cursor} (h : AnyHistory c) (catalog : Catalog) :
    (∀ row, (c.fetch catalog).1 = some row → row.names = c.schema.names.eraseDups) ∧
    ∀ columns input inner closed, Part ⟨.project columns input, .project inner closed⟩ c →
      AnyHistory ⟨.project columns input, .project inner closed⟩ ∧
      ∀ row, (Plan.fetch catalog input inner).1 = some row →
        ∀ column ∈ columns, ∀ name ∈ column.evaluator.fieldNames, (row.get? name).isSome := by
  refine ⟨fun row hr => h.fits hr, fun columns input inner closed hp => ⟨h.part hp, ?_⟩⟩
  intro row hr column hcolumn name hn
  obtain ⟨⟨⟨targets, hc⟩, -⟩, -⟩ := (h.part hp).wellFormed_and_heldFits
  have hi : AnyHistory ⟨input, inner⟩ := (h.part hp).inputs _ (List.mem_singleton_self _)
  exact isSome_get?_of_fits hc (hi.fits hr) hcolumn hn

/-- A projection that gives one name twice, over a renamed list whose schema does so too. -/
theorem fetched_rows_fit_schema_of_project :
    let input : Plan := .rename "t" (.list 0 [⟨"n", .integer⟩, ⟨"n", .integer⟩]
      [Row.ofList [("n", .integer 7)]])
    let columns : List Column := [⟨"a", .integer, .field "n"⟩, ⟨"a", .number, .negate (.field "t.n")⟩]
    let c := (ofPlan {} (.project columns input)).call {} .reset
    let r := Row.ofList [("n", .integer 7), ("t.n", .integer 7)]
    AnyHistory c ∧ (r.project columns).names = c.schema.names.eraseDups ∧
      (r.get? "t.n").isSome := by
  intro input columns c r
  have hp : (Plan.project columns input).WellFormed := by
    refine ⟨⟨[("a", .field "n"), ("a", .negate (.field "t.n"))], rfl⟩, ?_⟩
    exact List.forall_mem_singleton.mpr rfl
  have hc : AnyHistory c := Reachable.call {} trivial (Reachable.opened {} hp)
  obtain ⟨h1, h2⟩ := fetched_rows_fit_schema hc {}
  refine ⟨hc, h1 _ rfl, ?_⟩
  have hpart := h2 columns input (.rename (.list 0 1 0) false) false (.self _)
  exact hpart.2 r rfl ⟨"a", .number, .negate (.field "t.n")⟩ (by decide) "t.n" (by decide)

end PullSql.Cursor
