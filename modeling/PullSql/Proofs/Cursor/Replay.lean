import PullSql.Proofs.Cursor.History
import PullSql.Proofs.Plan.Open

/-!
# Fetches replay the rows of the plan

Over a catalog that stays the same, the fetches on a cursor that has just been built or reset answer
the rows of its plan one after another and nothing behind them, whatever happened to the cursor
before (`nth_fetch_replays_rows`).
-/

namespace PullSql.Cursor

/-- The answer of the fetch behind `k` others. -/
def nth (catalog : Catalog) : Nat → Cursor → Option Row
  | 0, c => (c.fetch catalog).1
  | k + 1, c => nth catalog k (c.fetch catalog).2

/-- The rows that a cursor hands out up to its next reset. -/
def upcoming (catalog : Catalog) (c : Cursor) : List Row := Plan.upcoming catalog c.plan c.state

/-- The rows that a cursor hands out from its next reset on. -/
def replay (catalog : Catalog) (c : Cursor) : List Row := Plan.replay catalog c.plan c.state

/-- No part of a cursor was closed. -/
def IsOpen (c : Cursor) : Prop := Plan.IsOpen c.plan c.state

/-! ## Fetches -/

section Fetches

variable (catalog : Catalog) (c : Cursor)

theorem fetch_fst_eq_head?_upcoming : (c.fetch catalog).1 = (c.upcoming catalog).head? :=
  ((Plan.steps catalog c.plan).fetch c.state).1

theorem upcoming_fetch : (c.fetch catalog).2.upcoming catalog = (c.upcoming catalog).tail :=
  ((Plan.steps catalog c.plan).fetch c.state).2.1

theorem nth_eq (k : Nat) : c.nth catalog k = (c.upcoming catalog)[k]? := by
  induction k generalizing c with
  | zero => rw [nth, fetch_fst_eq_head?_upcoming, List.head?_eq_getElem?]
  | succ k ih => rw [nth, ih, upcoming_fetch, List.getElem?_tail]

theorem take_eq (n : Nat) :
    (c.take catalog n).1 = (c.upcoming catalog).take n ∧
      (c.take catalog n).2.upcoming catalog = (c.upcoming catalog).drop n := by
  induction n generalizing c with
  | zero => exact ⟨rfl, rfl⟩
  | succ n ih =>
    have h1 := fetch_fst_eq_head?_upcoming catalog c
    have h2 := upcoming_fetch catalog c
    rcases hf : c.fetch catalog with ⟨_ | row, c'⟩
    · rw [hf] at h1 h2
      have h3 : c.upcoming catalog = [] := List.head?_eq_none_iff.mp h1.symm
      simp [take, hf, h3, h2]
    · rw [hf] at h1 h2
      have h3 : c.upcoming catalog = row :: c'.upcoming catalog := by
        rw [h2]
        exact List.eq_cons_of_mem_head? h1.symm
      obtain ⟨h4, h5⟩ := ih c'
      simp [take, hf, h3, h4, h5]

theorem drain_eq :
    (c.drain catalog).1 = c.upcoming catalog ∧ (c.drain catalog).2.upcoming catalog = [] := by
  have hlen : (c.upcoming catalog).length ≤ Plan.remaining catalog c.plan c.state + 1 :=
    Nat.le_succ_of_le (Plan.length_upcoming_le_remaining catalog c.plan c.state)
  obtain ⟨h1, h2⟩ := take_eq catalog c (Plan.remaining catalog c.plan c.state + 1)
  exact ⟨h1.trans (List.take_of_length_le hlen), h2.trans (List.drop_eq_nil_of_le hlen)⟩

end Fetches

/-! ## New cursors -/

section New

variable (catalog : Catalog) (p : Plan) (c d : Cursor)

theorem nth_ofPlan (k : Nat) : (ofPlan catalog p).nth catalog k = (p.rows catalog)[k]? :=
  (nth_eq catalog _ k).trans (congrArg (·[k]?) (Plan.upcoming_start catalog p))

theorem drain_ofPlan : ((ofPlan catalog p).drain catalog).1 = p.rows catalog :=
  (drain_eq catalog _).1.trans (Plan.upcoming_start catalog p)

/-- A new join resets its inputs, so it pairs what these hand out behind a reset. -/
theorem upcoming_join :
    (join catalog c d).upcoming catalog = Row.pairs (c.replay catalog) (d.replay catalog) :=
  ((Plan.steps catalog (.join c.plan d.plan)).reset (.join c.state d.state none false)).1

theorem replay_join :
    (join catalog c d).replay catalog = Row.pairs (c.replay catalog) (d.replay catalog) :=
  ((Plan.steps catalog (.join c.plan d.plan)).reset (.join c.state d.state none false)).2

end New

/-! ## Open cursors -/

section Open

variable (catalog : Catalog) {c d : Cursor}

theorem IsOpen.fetch (h : c.IsOpen) : (c.fetch catalog).2.IsOpen := Plan.IsOpen.fetch h catalog

theorem IsOpen.reset (h : c.IsOpen) : (c.reset catalog).IsOpen := Plan.IsOpen.reset h catalog

theorem IsOpen.join (hc : c.IsOpen) (hd : d.IsOpen) : (join catalog c d).IsOpen :=
  have h : Plan.IsOpen (.join c.plan d.plan) (.join c.state d.state none false) := ⟨rfl, hc, hd⟩
  h.reset catalog

theorem IsOpen.replay_eq (h : c.IsOpen) : c.replay catalog = c.plan.rows catalog :=
  Plan.replay_of_isOpen h

theorem IsOpen.upcoming_join (hc : c.IsOpen) (hd : d.IsOpen) :
    (Cursor.join catalog c d).upcoming catalog = (Plan.join c.plan d.plan).rows catalog := by
  rw [Cursor.upcoming_join, hc.replay_eq, hd.replay_eq]
  rfl

end Open

/-! ## Histories -/

theorem Unclosed.isOpen {c : Cursor} (h : Unclosed c) : c.IsOpen := by
  induction h with
  | opened catalog _ => exact Plan.isOpen_start catalog _
  | rename _ _ ih => exact ⟨rfl, ih⟩
  | join catalog _ _ hl hr => exact hl.join catalog hr
  | project _ hd ih =>
    obtain ⟨columns, -, rfl⟩ := project_eq_ok hd
    exact ⟨rfl, ih⟩
  | @call catalog c k hk _ ih =>
    cases k with
    | fetch => exact ih.fetch catalog
    | reset => exact ih.reset catalog
    | close => exact absurd rfl hk

theorem Fresh.upcoming_eq {catalog : Catalog} {c : Cursor} (h : Fresh catalog c) :
    c.upcoming catalog = c.plan.rows catalog := by
  induction h with
  | opened p => exact Plan.upcoming_start catalog p
  | rename qualifier _ ih => exact congrArg (List.map (Row.rename qualifier)) ih
  | join hl hr => exact hl.isOpen.upcoming_join catalog hr.isOpen
  | project _ hd ih =>
    obtain ⟨columns, -, rfl⟩ := project_eq_ok hd
    exact congrArg (List.map (Row.project columns)) ih
  | reset hc => exact Plan.upcoming_reset_of_isOpen hc.isOpen

/-! ## Replay -/

/-- **Replay.** A cursor that was never closed and has just been built or reset answers the rows of its
plan in their order and then nothing, and a drain collects these rows. From any point of its history a
cursor that was never closed drains to the answers of its fetches, and has nothing left behind them. -/
theorem nth_fetch_replays_rows (catalog : Catalog) :
    (∀ c, Fresh catalog c → (∀ k, c.nth catalog k = (c.plan.rows catalog)[k]?) ∧
      (c.drain catalog).1 = c.plan.rows catalog) ∧
    ∀ c, Unclosed c → (∀ k, c.nth catalog k = (c.drain catalog).1[k]?) ∧
      ∀ k, (c.drain catalog).2.nth catalog k = none := by
  refine ⟨fun c h => ?_, fun c _ => ?_⟩
  · have hr := h.upcoming_eq
    exact ⟨fun k => by rw [nth_eq, hr], (drain_eq catalog c).1.trans hr⟩
  · obtain ⟨h1, h2⟩ := drain_eq catalog c
    exact ⟨fun k => by rw [nth_eq, h1], fun k => by rw [nth_eq, h2]; rfl⟩

/-- A join of two scans that was fetched from, then reset over a catalog with a new relation. -/
theorem nth_fetch_replays_rows_of_join :
    let catalog : Catalog := { relations := [⟨"a", []⟩] }
    let c := ((ofPlan {} (.join .scan (.rename "t" .scan))).call {} .fetch).call catalog .reset
    Fresh catalog c ∧ Unclosed c ∧
      c.nth catalog 2 =
        some (Row.ofList [("IDENTIFIER", .text "TABLES"), ("t.IDENTIFIER", .text "TABLES")]) ∧
      c.nth catalog 4 = none ∧ (c.drain catalog).2.nth catalog 0 = none := by
  intro catalog c
  have hu : Unclosed ((ofPlan {} (.join .scan (.rename "t" .scan))).call {} .fetch) :=
    .call {} (by decide) (.opened {} trivial)
  have hc : Unclosed c := .call catalog (by decide) hu
  have hf : Fresh catalog c := .reset hu
  obtain ⟨h1, h2⟩ := nth_fetch_replays_rows catalog
  exact ⟨hf, hc, ((h1 c hf).1 2).trans (by decide), ((h1 c hf).1 4).trans (by decide), (h2 c hc).2 0⟩

end PullSql.Cursor
