import PullSql.Proofs.Cursor.Lifecycle

/-!
# Nested joins

Three cursors can be joined from either side. The two trees look one row ahead at different places
and reset their inputs at different times, but what a join answers depends on two lists only, `upcoming`
and `replay`. Joins on which these agree keep agreeing under all calls (`JoinsAlike.call`), and
bracketing changes neither list, so both trees answer alike (`join_assoc`).
-/

namespace PullSql.Cursor

/-- Two joins that hand out the same rows, up to a reset and behind it. A close ends any state of a
join, while a renaming that bears the mark of a close leaves its input as it is. -/
inductive JoinsAlike (catalog : Catalog) : Cursor → Cursor → Prop
  | mk {left right left' right' : Plan} {s : Plan.State (.join left right)}
      {t : Plan.State (.join left' right')} (hu : upcoming catalog ⟨_, s⟩ = upcoming catalog ⟨_, t⟩)
      (hr : replay catalog ⟨_, s⟩ = replay catalog ⟨_, t⟩) : JoinsAlike catalog ⟨_, s⟩ ⟨_, t⟩

variable {catalog : Catalog} {c d : Cursor}

/-! ## Joins that answer alike -/

theorem JoinsAlike.fetch_fst (h : JoinsAlike catalog c d) :
    (c.fetch catalog).1 = (d.fetch catalog).1 := by
  obtain ⟨hu, -⟩ := h
  rw [fetch_fst_eq_head?_upcoming, fetch_fst_eq_head?_upcoming, hu]

/-- A call leads from joins that answer alike to joins that answer alike. -/
theorem JoinsAlike.call (h : JoinsAlike catalog c d) (k : Call) :
    JoinsAlike catalog (c.call catalog k) (d.call catalog k) := by
  obtain @⟨left, right, left', right', s, t, hu, hr⟩ := h
  cases k with
  | fetch =>
    obtain ⟨-, hu₁, hr₁⟩ := (Plan.steps catalog (.join left right)).fetch s
    obtain ⟨-, hu₂, hr₂⟩ := (Plan.steps catalog (.join left' right')).fetch t
    exact .mk (hu₁.trans ((congrArg List.tail hu).trans hu₂.symm)) (hr₁.trans (hr.trans hr₂.symm))
  | reset =>
    obtain ⟨hu₁, hr₁⟩ := (Plan.steps catalog (.join left right)).reset s
    obtain ⟨hu₂, hr₂⟩ := (Plan.steps catalog (.join left' right')).reset t
    exact .mk (hu₁.trans (hr.trans hu₂.symm)) (hr₁.trans (hr.trans hr₂.symm))
  | close =>
    obtain ⟨hu₁, hr₁⟩ := Plan.upcoming_close_join catalog s
    obtain ⟨hu₂, hr₂⟩ := Plan.upcoming_close_join catalog t
    exact .mk (hu₁.trans hu₂.symm) (hr₁.trans hr₂.symm)

theorem JoinsAlike.calls (h : JoinsAlike catalog c d) (ks : List Call) :
    JoinsAlike catalog (c.calls (ks.map (catalog, ·))) (d.calls (ks.map (catalog, ·))) := by
  induction ks generalizing c d with
  | nil => exact h
  | cons k ks ih => exact ih (h.call k)

/-! ## New joins -/

theorem joinsAlike_join_join (catalog : Catalog) (a b c : Cursor) :
    JoinsAlike catalog (join catalog (join catalog a b) c) (join catalog a (join catalog b c)) := by
  have hp : Row.pairs ((join catalog a b).replay catalog) (c.replay catalog) =
      Row.pairs (a.replay catalog) ((join catalog b c).replay catalog) := by
    rw [replay_join, replay_join, Row.pairs_assoc]
  refine .mk ?_ ?_
  · exact (upcoming_join catalog (join catalog a b) c).trans
      (hp.trans (upcoming_join catalog a (join catalog b c)).symm)
  · exact (replay_join catalog (join catalog a b) c).trans
      (hp.trans (replay_join catalog a (join catalog b c)).symm)

/-- **Joining is associative.** Whatever happened to three cursors before, both ways to join them have
the same fields, and as long as the catalog stays the same they give the same answer to a fetch behind
any calls. -/
theorem join_assoc (catalog : Catalog) (a b c : Cursor) :
    let l := join catalog (join catalog a b) c
    let r := join catalog a (join catalog b c)
    l.schema = r.schema ∧
      ∀ ks : List Call, ((l.calls (ks.map (catalog, ·))).fetch catalog).1 =
        ((r.calls (ks.map (catalog, ·))).fetch catalog).1 := by
  intro l r
  have h : JoinsAlike catalog l r := joinsAlike_join_join catalog a b c
  exact ⟨List.append_assoc a.schema b.schema c.schema, fun ks => (h.calls ks).fetch_fst⟩

/-- The bracketing shows in how often an input was reset, which no answer tells. -/
example :
    let source (tag : Nat) := ofPlan {} (.list tag [] [Row.empty])
    (join {} (join {} (source 0) (source 1)) (source 2)).tallies =
        [⟨0, 2, 0⟩, ⟨1, 2, 0⟩, ⟨2, 1, 0⟩] ∧
      (join {} (source 0) (join {} (source 1) (source 2))).tallies =
        [⟨0, 1, 0⟩, ⟨1, 2, 0⟩, ⟨2, 2, 0⟩] := by
  decide

end PullSql.Cursor
