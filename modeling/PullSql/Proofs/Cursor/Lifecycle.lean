import PullSql.Proofs.Cursor.Replay
import PullSql.Proofs.Plan.Spent

/-!
# The end of a cursor

What any sequence of calls does to the two ways of having no more rows, each call being made over a
catalog of its own.

1. Until the first close a cursor is open, and from then on it is shut for good, whatever is called
   (`IsOpen.calls`). So its list sources are closed once and no fetch behind a close answers a row
   (`close_is_final`).
2. A fetch that finds nothing leaves a cursor that finds nothing until it is reset, whatever happens to
   the catalog (`exhausted_until_reset`).
-/

namespace PullSql.Cursor

/-- The cursor behind a sequence of calls. -/
def calls (c : Cursor) (ks : List (Catalog × Call)) : Cursor :=
  ks.foldl (fun c k => c.call k.1 k.2) c

/-- Every part of a cursor was closed. -/
def IsShut (c : Cursor) : Prop := Plan.IsShut c.plan c.state

/-- A cursor answers nothing until it is reset. -/
def IsSpent (c : Cursor) : Prop := Plan.IsSpent c.plan c.state

/-- The tags of the list sources of a cursor, each with the number of its closes. -/
def closeCounts (c : Cursor) : List (Nat × Nat) := c.tallies.map fun t => (t.tag, t.closes)

@[simp] theorem calls_cons (c : Cursor) (k : Catalog × Call) (ks : List (Catalog × Call)) :
    c.calls (k :: ks) = (c.call k.1 k.2).calls ks := rfl

variable {c : Cursor}

/-! ## Shut cursors -/

theorem plan_calls (c : Cursor) (ks : List (Catalog × Call)) : (c.calls ks).plan = c.plan := by
  induction ks generalizing c with
  | nil => rfl
  | cons k ks ih =>
    refine (ih (c.call k.1 k.2)).trans ?_
    cases k.2 <;> rfl

theorem IsSpent.fetch (h : c.IsSpent) (catalog : Catalog) : c.fetch catalog = (none, c) := by
  have hf := Plan.fetch_of_isSpent catalog h
  simp only [Cursor.fetch, hf]

theorem IsShut.isSpent (h : c.IsShut) : c.IsSpent := Plan.isSpent_of_isShut h

theorem IsOpen.close (h : c.IsOpen) : c.close.IsShut := Plan.isShut_close h

theorem IsShut.close (h : c.IsShut) : c.close = c :=
  congrArg (Cursor.mk c.plan) (Plan.close_of_isShut h)

theorem IsShut.call (h : c.IsShut) (catalog : Catalog) (k : Call) : (c.call catalog k).IsShut := by
  cases k with
  | fetch =>
    have hf := h.isSpent.fetch catalog
    simp only [Cursor.call, hf]
    exact h
  | reset => exact Plan.isShut_reset catalog h
  | close =>
    show c.close.IsShut
    rwa [h.close]

theorem IsShut.calls (h : c.IsShut) (ks : List (Catalog × Call)) : (c.calls ks).IsShut := by
  induction ks generalizing c with
  | nil => exact h
  | cons k ks ih => exact ih (h.call k.1 k.2)

/-- The first close divides the history of a cursor. -/
theorem IsOpen.calls (h : c.IsOpen) (ks : List (Catalog × Call)) :
    (.close ∉ ks.map Prod.snd → (c.calls ks).IsOpen) ∧
      (.close ∈ ks.map Prod.snd → (c.calls ks).IsShut) := by
  induction ks generalizing c with
  | nil => exact ⟨fun _ => h, fun hm => absurd hm List.not_mem_nil⟩
  | cons k ks ih =>
    obtain ⟨catalog, k⟩ := k
    cases k with
    | fetch => simpa [Cursor.call] using ih (h.fetch catalog)
    | reset => simpa [Cursor.call] using ih (h.reset catalog)
    | close => simpa [Cursor.call] using h.close.calls ks

theorem IsOpen.closeCounts (h : c.IsOpen) : c.closeCounts = c.plan.tags.map fun tag => (tag, 0) :=
  Plan.closedTimes_of_isOpen h

theorem IsShut.closeCounts (h : c.IsShut) : c.closeCounts = c.plan.tags.map fun tag => (tag, 1) :=
  Plan.closedTimes_of_isShut h

/-- A projection with a column that does not compile closes the cursor that it was to stand on. -/
theorem project_of_error {targets : List (String × Sql.Expr)} {e : Error}
    (h : Column.compileAll c.schema targets = .error e) : c.project targets = .error ⟨e, c.close⟩ := by
  simp only [project, h]

theorem isShut_close_calls (h : c.IsOpen) (ks : List (Catalog × Call)) :
    (c.calls ks).close.IsShut := by
  by_cases hm : .close ∈ ks.map Prod.snd
  · have hk := (h.calls ks).2 hm
    rwa [hk.close]
  · exact ((h.calls ks).1 hm).close

/-- **Closing is final.** Take a cursor that was never closed and make any calls on it. Each of its list
sources was closed once if a close is among the calls, and else never; behind a close no fetch answers
a row. A projection on it that does not compile fails with that error, and the list sources below are
then closed once. -/
theorem close_is_final (h : Unclosed c) (ks : List (Catalog × Call)) :
    (c.calls ks).closeCounts =
      c.plan.tags.map (fun tag => (tag, if .close ∈ ks.map Prod.snd then 1 else 0)) ∧
    (.close ∈ ks.map Prod.snd → ∀ catalog, ((c.calls ks).fetch catalog).1 = none) ∧
    ∀ targets e, Column.compileAll c.schema targets = .error e →
      ∃ input, (c.calls ks).project targets = .error ⟨e, input⟩ ∧
        input.closeCounts = c.plan.tags.map fun tag => (tag, 1) := by
  obtain ⟨hopen, hshut⟩ := h.isOpen.calls ks
  have hplan := plan_calls c ks
  refine ⟨?_, fun hm catalog => ?_, fun targets e he => ?_⟩
  · by_cases hm : .close ∈ ks.map Prod.snd
    · rw [(hshut hm).closeCounts, hplan]
      simp only [hm, if_true]
    · rw [(hopen hm).closeCounts, hplan]
      simp only [hm, if_false]
  · rw [(hshut hm).isSpent.fetch catalog]
  · have hs : (c.calls ks).schema = c.schema := congrArg Plan.schema hplan
    refine ⟨(c.calls ks).close, project_of_error (hs ▸ he), ?_⟩
    rw [(isShut_close_calls h.isOpen ks).closeCounts]
    exact congrArg (fun p : Plan => p.tags.map fun tag => (tag, 1)) hplan

/-- A join of a list with a scan under a projection: fetched from, closed twice with a reset in between
over a larger catalog, and then put under a projection that does not compile. -/
theorem close_is_final_of_join :
    let rows := [Row.ofList [("n", .integer 1)], Row.ofList [("n", .integer 2)]]
    let source : Plan := .list 7 [⟨"n", .integer⟩] rows
    let c := ofPlan {} (.project [⟨"n", .integer, .field "n"⟩] (.join source (.rename "t" .scan)))
    let catalog : Catalog := { relations := [⟨"a", []⟩] }
    let ks : List (Catalog × Call) := [({}, .fetch), ({}, .close), (catalog, .reset), (catalog, .close)]
    Unclosed c ∧ (c.calls [({}, .fetch)]).closeCounts = [(7, 0)] ∧
      (c.calls ks).closeCounts = [(7, 1)] ∧ ((c.calls ks).fetch catalog).1 = none ∧
      ∃ input, (c.calls ks).project [("x", .field "m")] = .error ⟨.unresolvedIdentifier "m", input⟩ ∧
        input.closeCounts = [(7, 1)] := by
  intro rows source c catalog ks
  have hc : Unclosed c := .opened {} trivial
  obtain ⟨h1, h2, h3⟩ := close_is_final hc ks
  exact ⟨hc, (close_is_final hc [({}, .fetch)]).1, h1, h2 (by decide) catalog, h3 _ _ rfl⟩

/-! ## Spent cursors -/

theorem isSpent_of_fetch_eq_none {catalog : Catalog} (h : (c.fetch catalog).1 = none) :
    (c.fetch catalog).2.IsSpent :=
  Plan.isSpent_of_fetch_eq_none h

theorem IsSpent.call (h : c.IsSpent) (catalog : Catalog) {k : Call} (hk : k ≠ .reset) :
    (c.call catalog k).IsSpent := by
  cases k with
  | fetch =>
    have hf := h.fetch catalog
    simp only [Cursor.call, hf]
    exact h
  | reset => exact absurd rfl hk
  | close => exact Plan.isSpent_close h

theorem IsSpent.calls (h : c.IsSpent) {ks : List (Catalog × Call)}
    (hk : .reset ∉ ks.map Prod.snd) : (c.calls ks).IsSpent := by
  induction ks generalizing c with
  | nil => exact h
  | cons k ks ih =>
    rw [List.map_cons, List.mem_cons, not_or] at hk
    exact ih (h.call k.1 (Ne.symm hk.1)) hk.2

/-- **Exhaustion lasts until a reset.** Once a fetch finds nothing, in whatever state the cursor is,
no fetch behind calls without a reset answers a row, whatever the catalogs are by then. -/
theorem exhausted_until_reset {catalog : Catalog} (h : (c.fetch catalog).1 = none)
    {ks : List (Catalog × Call)} (hk : .reset ∉ ks.map Prod.snd) (later : Catalog) :
    (((c.fetch catalog).2.calls ks).fetch later).1 = none := by
  rw [((isSpent_of_fetch_eq_none h).calls hk).fetch later]

/-- A join whose right side is a join with an empty list, drained before relations are registered. -/
theorem exhausted_until_reset_of_join :
    let c := ofPlan {} (.join .scan (.join .scan (.list 0 [] [])))
    let catalog : Catalog := { relations := [⟨"a", []⟩, ⟨"b", []⟩] }
    let ks : List (Catalog × Call) := [(catalog, .fetch), ({}, .close), (catalog, .fetch)]
    (c.fetch {}).1 = none ∧ (((c.fetch {}).2.calls ks).fetch catalog).1 = none := by
  intro c catalog ks
  have h : (c.fetch {}).1 = none := rfl
  exact ⟨h, exhausted_until_reset h (by decide) catalog⟩

end PullSql.Cursor
