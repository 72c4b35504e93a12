import PullSql.Proofs.Plan.Names
import PullSql.Proofs.Row.Types

/-!
# Rows of a plan are typed by its schema

Where the sources of a plan give values of their types and fields of one name agree on their type in
every schema on the way up, each row that is made as the plan says is typed by its schema
(`Makes.typed`), whatever joins and qualifiers the values went through.
-/

namespace PullSql.Plan

/-- Sources give values of their types, and in every schema fields of one name have one type. -/
def WellTyped : Plan → Prop
  | single value type => type.Admits value
  | scan => True
  | list _ schema rows => ∀ row ∈ rows, row.Typed schema
  | rename qualifier input => (rename qualifier input).schema.Consistent ∧ input.WellTyped
  | join left right => (join left right).schema.Consistent ∧ left.WellTyped ∧ right.WellTyped
  | project columns input => (project columns input).schema.Consistent ∧ input.WellTyped

theorem Makes.typed {p : Plan} {row : Row} (h : p.Makes row) (hp : p.WellFormed)
    (ht : p.WellTyped) : row.Typed p.schema := by
  induction h with
  | single value type => exact Row.typed_single ht
  | scan name => exact Row.typed_ofName name
  | list h => exact ht _ h
  | rename qualifier h ih => exact (ih hp ht.2).rename (h.fits hp).carries ht.1
  | join _ hb iha ihb =>
    exact (iha hp.1 ht.2.1).merge (ihb hp.2 ht.2.2) (hb.fits hp.2).carries ht.1
  | project columns h ih =>
    obtain ⟨targets, hc⟩ := hp.1
    exact Column.typed_project hc (ih hp.2 ht.2) (h.fits hp.2).carries ht.1

end PullSql.Plan
