import PullSql.Proofs.Column.Compile
import PullSql.Proofs.Plan.Origins
import PullSql.Proofs.Row.Names

/-!
# Rows of a plan fit its schema

A row that is made as a plan says fits the schema of that plan (`Makes.fits`), so the rows that joins
hold fit the schemas of their left sides (`HeldMade.heldFits`), however the catalog changes between
the calls.
-/

namespace PullSql.Plan

/-- The rows of list sources fit their schema, and columns are compiled against their input. -/
def WellFormed : Plan → Prop
  | single _ _ => True
  | scan => True
  | list _ schema rows => ∀ row ∈ rows, row.Fits schema
  | rename _ input => input.WellFormed
  | join left right => left.WellFormed ∧ right.WellFormed
  | project columns input =>
    (∃ targets, Column.compileAll input.schema targets = .ok columns) ∧ input.WellFormed

/-- The row that a join holds fits its left side. -/
def HeldFits : (p : Plan) → State p → Prop
  | .single _ _, _ => True
  | .scan, _ => True
  | .list _ _ _, _ => True
  | .rename _ input, .rename inner _ => HeldFits input inner
  | .join left right, .join outer inner held _ =>
    (∀ a ∈ held, a.Fits left.schema) ∧ HeldFits left outer ∧ HeldFits right inner
  | .project _ input, .project inner _ => HeldFits input inner

/-- A row that a plan makes has the names of its schema. -/
theorem Makes.fits {p : Plan} {row : Row} (h : p.Makes row) (hp : p.WellFormed) :
    row.Fits p.schema := by
  induction h with
  | single value type => exact Row.fits_single value type
  | scan name => exact Row.fits_ofName name
  | list h => exact hp _ h
  | rename qualifier _ ih => exact (ih hp).rename qualifier
  | join _ _ iha ihb => exact (iha hp.1).merge (ihb hp.2)
  | project columns _ _ => exact Row.fits_project columns _

theorem HeldMade.heldFits {p : Plan} {s : State p} (h : HeldMade p s) (hp : p.WellFormed) :
    HeldFits p s := by
  induction p with
  | single | scan | list => cases s; trivial
  | rename qualifier input ih =>
    cases s with
    | rename inner closed => exact ih h hp
  | join left right ihl ihr =>
    cases s with
    | join outer inner held closed =>
      obtain ⟨hheld, houter, hinner⟩ := h
      exact ⟨fun a ha => (hheld a ha).fits hp.1, ihl houter hp.1, ihr hinner hp.2⟩
  | project columns input ih =>
    cases s with
    | project inner closed => exact ih h hp.2

end PullSql.Plan
