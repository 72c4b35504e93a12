import PullSql.Cursor

/-!
# Histories of cursors

The cursors that a program can come to hold: opened on a plan, put under an operator, and called any
number of times. The catalog may have changed arbitrarily between any two of these steps.
-/

namespace PullSql

/-- A call on a cursor. -/
inductive Call where
  | fetch | reset | close
  deriving DecidableEq, Repr

namespace Cursor

/-- The cursor behind a call. -/
def call (catalog : Catalog) (c : Cursor) : Call → Cursor
  | .fetch => (c.fetch catalog).2
  | .reset => c.reset catalog
  | .close => c.close

/-- The cursors that come about from opening plans of one kind, putting operators on top and making
calls of one kind, each step over a catalog of its own. -/
inductive Reachable (opens : Plan → Prop) (calls : Call → Prop) : Cursor → Prop
  | opened (catalog : Catalog) {p : Plan} (hp : opens p) : Reachable opens calls (ofPlan catalog p)
  | rename (qualifier : String) {c : Cursor} (hc : Reachable opens calls c) :
      Reachable opens calls (c.rename qualifier)
  | join (catalog : Catalog) {left right : Cursor} (hl : Reachable opens calls left)
      (hr : Reachable opens calls right) : Reachable opens calls (join catalog left right)
  | project {targets : List (String × Sql.Expr)} {c d : Cursor} (hc : Reachable opens calls c)
      (hd : c.project targets = .ok d) : Reachable opens calls d
  | call (catalog : Catalog) {c : Cursor} {k : Call} (hk : calls k)
      (hc : Reachable opens calls c) : Reachable opens calls (c.call catalog k)

/-- A cursor with any history in which nothing was closed. -/
abbrev Unclosed : Cursor → Prop := Reachable (fun _ => True) (· ≠ .close)

/-- A cursor that has just been built or reset over the catalog. An operator that resets nothing is as
fresh as its input; a join resets both its inputs, whatever their history. -/
inductive Fresh (catalog : Catalog) : Cursor → Prop
  | opened (p : Plan) : Fresh catalog (ofPlan catalog p)
  | rename (qualifier : String) {c : Cursor} (hc : Fresh catalog c) :
      Fresh catalog (c.rename qualifier)
  | join {left right : Cursor} (hl : Unclosed left) (hr : Unclosed right) :
      Fresh catalog (join catalog left right)
  | project {targets : List (String × Sql.Expr)} {c d : Cursor} (hc : Fresh catalog c)
      (hd : c.project targets = .ok d) : Fresh catalog d
  | reset {c : Cursor} (hc : Unclosed c) : Fresh catalog (c.reset catalog)

/-- A projection that is built stands on top of its input as it is. -/
theorem project_eq_ok {targets : List (String × Sql.Expr)} {c d : Cursor}
    (h : c.project targets = .ok d) :
    ∃ columns, Column.compileAll c.schema targets = .ok columns ∧
      d = ⟨.project columns c.plan, .project c.state false⟩ := by
  unfold project at h
  split at h
  · rename_i columns hc
    exact ⟨columns, hc, (Except.ok.inj h).symm⟩
  · exact absurd h (by simp)

end Cursor

end PullSql
