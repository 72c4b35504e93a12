import PullSql.Proofs.Cursor.Lifecycle
import PullSql.Proofs.Cursor.Parts
import PullSql.Proofs.Plan.Origins

/-!
# Where the rows of a cursor come from

A cursor with any history answers rows that are made as its plan says (`makes_of_fetch`), and a
projection answers what it computes from the row that its input answers at that moment
(`exists_input_of_fetch`).
-/

namespace PullSql.Cursor

/-- A cursor whose joins hold rows of their left sides. -/
def IsMade (c : Cursor) : Prop := Plan.HeldMade c.plan c.state

section Made

variable {c : Cursor}

theorem isMade_ofPlan (catalog : Catalog) (p : Plan) : (ofPlan catalog p).IsMade :=
  Plan.heldMade_start catalog p

theorem IsMade.call (h : c.IsMade) (catalog : Catalog) (k : Call) : (c.call catalog k).IsMade := by
  cases k with
  | fetch => exact ((Plan.making catalog c.plan).fetch c.state h).2
  | reset => exact (Plan.making catalog c.plan).reset c.state h
  | close => exact Plan.heldMade_close h

/-- Whatever a cursor was opened on, and whatever was called on it. -/
theorem Reachable.isMade {opens : Plan → Prop} {calls : Call → Prop}
    (h : Reachable opens calls c) : c.IsMade := by
  induction h with
  | opened catalog _ => exact isMade_ofPlan catalog _
  | rename _ _ ih => exact ih
  | @join catalog left right _ _ ihl ihr =>
    exact (Plan.making catalog (.join left.plan right.plan)).reset
      (.join left.state right.state none false) ⟨by simp, ihl, ihr⟩
  | project _ hd ih =>
    obtain ⟨columns, -, rfl⟩ := project_eq_ok hd
    exact ih
  | call catalog _ _ ih => exact ih.call catalog _

theorem IsMade.calls (h : c.IsMade) (ks : List (Catalog × Call)) : (c.calls ks).IsMade := by
  induction ks generalizing c with
  | nil => exact h
  | cons k ks ih => exact ih (h.call k.1 k.2)

/-- A row that is answered after any calls is made as the plan says. -/
theorem makes_of_fetch (h : c.IsMade) {catalog : Catalog} {row : Row}
    (hr : (c.fetch catalog).1 = some row) : c.plan.Makes row :=
  ((Plan.making catalog c.plan).fetch c.state h).1 row hr

/-- A projection answers what it computes from the row that its input answers. -/
theorem exists_input_of_fetch {columns : List Column} {input : Plan} (h : c.IsMade)
    (hp : c.plan = .project columns input) {catalog : Catalog} {row : Row}
    (hr : (c.fetch catalog).1 = some row) :
    ∃ d ∈ c.inputs, ∃ r, (d.fetch catalog).1 = some r ∧ input.Makes r ∧ row = r.project columns := by
  obtain ⟨plan, state⟩ := c
  obtain rfl : plan = .project columns input := hp
  cases state with
  | project inner closed =>
    have hd : IsMade ⟨input, inner⟩ := h
    obtain ⟨r, hinput, rfl⟩ := Option.map_eq_some_iff.mp hr
    exact ⟨⟨input, inner⟩, List.mem_singleton_self _, r, hinput, makes_of_fetch hd hinput, rfl⟩

end Made

end PullSql.Cursor
