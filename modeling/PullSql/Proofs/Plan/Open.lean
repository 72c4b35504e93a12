import PullSql.Proofs.Plan.Upcoming

/-!
# Open states

A state is open when no part of it was closed. Such a state has all rows of its plan behind a reset
(`replay_of_isOpen`), fetches and resets leave it open (`IsOpen.fetch`, `IsOpen.reset`), and a new state
is open, with all rows to come (`isOpen_start`, `upcoming_start`).
-/

namespace PullSql.Plan

/-- No part of a state was closed. -/
def IsOpen : (p : Plan) → State p → Prop
  | .single _ _, .single _ closed => closed = false
  | .scan, .scan _ closed => closed = false
  | .list _ _ _, .list _ _ closes => closes = 0
  | .rename _ input, .rename inner closed => closed = false ∧ IsOpen input inner
  | .join left right, .join outer inner _ closed =>
    closed = false ∧ IsOpen left outer ∧ IsOpen right inner
  | .project _ input, .project inner closed => closed = false ∧ IsOpen input inner

section Open

variable {catalog : Catalog} {p left right : Plan}

/-- Behind a reset an open state has all rows of the plan. -/
theorem replay_of_isOpen {s : State p} (h : IsOpen p s) :
    replay catalog p s = p.rows catalog := by
  induction p with
  | single value type =>
    cases s with
    | single emitted closed =>
      obtain rfl : closed = false := h
      rfl
  | scan =>
    cases s with
    | scan pending closed =>
      obtain rfl : closed = false := h
      rfl
  | list tag schema rows =>
    cases s with
    | list position resets closes =>
      obtain rfl : closes = 0 := h
      rfl
  | rename qualifier input ih =>
    cases s with
    | rename inner closed => exact congrArg (List.map (Row.rename qualifier)) (ih h.2)
  | project columns input ih =>
    cases s with
    | project inner closed => exact congrArg (List.map (Row.project columns)) (ih h.2)
  | join left right ihl ihr =>
    cases s with
    | join outer inner held closed =>
      obtain ⟨rfl, ho, hi⟩ := h
      exact congrArg₂ Row.pairs (ihl ho) (ihr hi)

theorem upcoming_reset_of_isOpen {s : State p} (h : IsOpen p s) :
    upcoming catalog p (reset catalog p s) = p.rows catalog :=
  ((steps catalog p).reset s).1.trans (replay_of_isOpen h)

/-! ## Fetching and resetting open states -/

/-- Fetching and resetting close no part of a state. -/
structure StaysOpen (catalog : Catalog) (p : Plan) : Prop where
  fetch : ∀ s, IsOpen p s → IsOpen p (fetch catalog p s).2
  reset : ∀ s, IsOpen p s → IsOpen p (reset catalog p s)

theorem StaysOpen.of_fetch {s t : State p} {answer : Option Row} (h : StaysOpen catalog p)
    (hs : IsOpen p s) (hf : Plan.fetch catalog p s = (answer, t)) : IsOpen p t := by
  have ht := h.fetch s hs
  rwa [hf] at ht

theorem isOpen_fetch_join (hl : StaysOpen catalog left) (hr : StaysOpen catalog right)
    {outer : State left} {inner : State right} {held : Option Row}
    {answer : Option Row × State (.join left right)}
    (h : JoinFetches catalog outer inner held false answer) (ho : IsOpen left outer)
    (hi : IsOpen right inner) : IsOpen (.join left right) answer.2 := by
  cases h with
  | idle => exact ⟨rfl, ho, hi⟩
  | paired hf => exact ⟨rfl, ho, hr.of_fetch hi hf⟩
  | ended hf hg => exact ⟨rfl, hl.of_fetch ho hg, hr.of_fetch hi hf⟩
  | advanced hf hg hk | empty hf hg hk =>
    exact ⟨rfl, hl.of_fetch ho hg, hr.of_fetch (hr.reset _ (hr.of_fetch hi hf)) hk⟩

theorem staysOpen (catalog : Catalog) (p : Plan) : StaysOpen catalog p := by
  induction p with
  | single value type =>
    refine ⟨fun s h => ?_, fun s h => ?_⟩
    · cases s with
      | single emitted closed =>
        obtain rfl : closed = false := h
        cases emitted <;> rfl
    · cases s
      exact h
  | scan =>
    refine ⟨fun s h => ?_, fun s h => ?_⟩
    · cases s with
      | scan pending closed =>
        obtain rfl : closed = false := h
        rfl
    · cases s
      exact h
  | list tag schema rows =>
    refine ⟨fun s h => ?_, fun s h => ?_⟩
    · cases s with
      | list position resets closes =>
        obtain rfl : closes = 0 := h
        rcases hr : rows[position]? with _ | row <;> simp [fetch, hr, IsOpen]
    · cases s
      exact h
  | rename qualifier input ih =>
    refine ⟨fun s h => ?_, fun s h => ?_⟩
    · cases s with
      | rename inner closed => exact ⟨h.1, ih.fetch inner h.2⟩
    · cases s with
      | rename inner closed => exact ⟨h.1, ih.reset inner h.2⟩
  | project columns input ih =>
    refine ⟨fun s h => ?_, fun s h => ?_⟩
    · cases s with
      | project inner closed => exact ⟨h.1, ih.fetch inner h.2⟩
    · cases s with
      | project inner closed => exact ⟨h.1, ih.reset inner h.2⟩
  | join left right hl hr =>
    refine ⟨fun s h => ?_, fun s h => ?_⟩
    · cases s with
      | join outer inner held closed =>
        obtain ⟨rfl, ho, hi⟩ := h
        exact isOpen_fetch_join hl hr (joinFetches catalog outer inner held false) ho hi
    · cases s with
      | join outer inner held closed =>
        exact ⟨h.1, hl.fetch _ (hl.reset outer h.2.1), hr.reset inner h.2.2⟩

variable {s : State p}

theorem IsOpen.fetch (h : IsOpen p s) (catalog : Catalog) : IsOpen p (fetch catalog p s).2 :=
  (staysOpen catalog p).fetch s h

theorem IsOpen.reset (h : IsOpen p s) (catalog : Catalog) : IsOpen p (reset catalog p s) :=
  (staysOpen catalog p).reset s h

end Open

/-! ## New states -/

theorem isOpen_start (catalog : Catalog) (p : Plan) : IsOpen p (start catalog p) := by
  induction p with
  | single | scan | list => rfl
  | rename _ input ih => exact ⟨rfl, ih⟩
  | project _ input ih => exact ⟨rfl, ih⟩
  | join left right hl hr =>
    have h : IsOpen (.join left right) (.join (start catalog left) (start catalog right) none false) :=
      ⟨rfl, hl, hr⟩
    exact h.reset catalog

theorem upcoming_start (catalog : Catalog) (p : Plan) :
    upcoming catalog p (start catalog p) = p.rows catalog := by
  induction p with
  | single | list => rfl
  | scan => simp [upcoming, start, rows, filter_isLive_scanNames]
  | rename qualifier input ih => exact congrArg (List.map (Row.rename qualifier)) ih
  | project columns input ih => exact congrArg (List.map (Row.project columns)) ih
  | join left right _ _ =>
    have h : IsOpen (.join left right) (.join (start catalog left) (start catalog right) none false) :=
      ⟨rfl, isOpen_start catalog left, isOpen_start catalog right⟩
    exact upcoming_reset_of_isOpen h

end PullSql.Plan
