import PullSql.Proofs.Plan.Open

/-!
# States without rows to come

Two ways in which a state has come to its end, whatever happens to the catalog.

1. A spent state answers nothing until it is reset (`fetch_of_isSpent`). Every fetch that finds no row
   leaves one (`isSpent_of_fetch_eq_none`): a source has passed over all it had, and a join has let go
   of its left row, on each of the three ways on which it ends.
2. A shut state answers nothing ever again. Closing shuts an open state (`isShut_close`) and leaves a
   shut one as it is (`close_of_isShut`); resets make sources look at the catalog and joins fetch, but
   all parts stay shut (`isShut_reset`).

Open and shut states are told apart by how often their list sources were closed
(`closedTimes_of_isOpen`, `closedTimes_of_isShut`).
-/

namespace PullSql.Plan

variable {p left right : Plan}

/-! ## Spent states -/

/-- Nothing is handed out until the next reset. Only the topmost join of a branch counts, since it asks
its inputs for nothing once it holds no left row. -/
def IsSpent : (p : Plan) → State p → Prop
  | .single _ _, .single emitted closed => emitted = true ∨ closed = true
  | .scan, .scan pending closed => pending = [] ∨ closed = true
  | .list _ _ rows, .list position _ closes => rows.length ≤ position ∨ closes ≠ 0
  | .rename _ input, .rename inner _ => IsSpent input inner
  | .join _ _, .join _ _ held closed => held = none ∨ closed = true
  | .project _ input, .project inner _ => IsSpent input inner

/-- A fetch from a spent state finds nothing and changes nothing. -/
theorem fetch_of_isSpent (catalog : Catalog) {s : State p} (h : IsSpent p s) :
    fetch catalog p s = (none, s) := by
  induction p with
  | single value type =>
    cases s with
    | single emitted closed => rcases h with rfl | rfl <;> simp [fetch]
  | scan =>
    cases s with
    | scan pending closed => rcases h with rfl | rfl <;> simp [fetch, nextName]
  | list tag schema rows =>
    cases s with
    | list position resets closes =>
      have hn : (if closes = 0 then rows[position]? else none) = none := by
        rcases h with h | h
        · simp [List.getElem?_eq_none_iff.mpr h]
        · exact if_neg h
      simp [fetch, hn]
  | rename qualifier input ih =>
    cases s with
    | rename inner closed => simp [fetch, ih h]
  | join left right _ _ =>
    cases s with
    | join outer inner held closed =>
      have hn : (if closed then none else held) = none := by
        rcases h with rfl | rfl <;> simp
      simp only [fetch, hn]
  | project columns input ih =>
    cases s with
    | project inner closed => simp [fetch, ih h]

theorem nextName_eq_none {catalog : Catalog} {pending : List String}
    (h : (nextName catalog pending).1 = none) : (nextName catalog pending).2 = [] := by
  induction pending with
  | nil => rfl
  | cons name pending ih =>
    by_cases hl : catalog.isLive name
    · simp [nextName, hl] at h
    · simp only [nextName, hl, Bool.false_eq_true, if_false] at h ⊢
      exact ih h

theorem isSpent_of_fetch_join {catalog : Catalog} {outer : State left} {inner : State right}
    {held : Option Row} {closed : Bool} {answer : Option Row × State (.join left right)}
    (h : JoinFetches catalog outer inner held closed answer) (hn : answer.1 = none) :
    IsSpent (.join left right) answer.2 := by
  cases h with
  | idle h => exact h
  | paired | advanced => cases hn
  | ended | empty => exact .inl rfl

/-- A fetch that finds nothing leaves a spent state. -/
theorem isSpent_of_fetch_eq_none {catalog : Catalog} {s : State p}
    (h : (fetch catalog p s).1 = none) : IsSpent p (fetch catalog p s).2 := by
  induction p with
  | single value type =>
    cases s with
    | single emitted closed => cases emitted <;> cases closed <;> simp_all [fetch, IsSpent]
  | scan =>
    cases s with
    | scan pending closed =>
      cases closed
      · exact .inl (nextName_eq_none h)
      · exact .inr rfl
  | list tag schema rows =>
    cases s with
    | list position resets closes =>
      rcases hr : if closes = 0 then rows[position]? else none with _ | row
      · simp only [fetch, hr]
        by_cases hc : closes = 0
        · rw [if_pos hc] at hr
          exact .inl (List.getElem?_eq_none_iff.mp hr)
        · exact .inr hc
      · simp [fetch, hr] at h
  | rename qualifier input ih =>
    cases s with
    | rename inner closed => exact ih (Option.map_eq_none_iff.mp h)
  | join left right _ _ =>
    cases s with
    | join outer inner held closed =>
      exact isSpent_of_fetch_join (joinFetches catalog outer inner held closed) h
  | project columns input ih =>
    cases s with
    | project inner closed => exact ih (Option.map_eq_none_iff.mp h)

theorem isSpent_close {s : State p} (h : IsSpent p s) : IsSpent p (close p s) := by
  induction p with
  | single value type =>
    cases s with
    | single emitted closed => exact .inr rfl
  | scan =>
    cases s with
    | scan pending closed => exact .inr rfl
  | list tag schema rows =>
    cases s with
    | list position resets closes =>
      right
      show max closes 1 ≠ 0
      omega
  | rename qualifier input ih =>
    cases s with
    | rename inner closed =>
      exact (maps_rename qualifier input).of_close (Q := IsSpent input) (fun _ => ih) (.rename inner closed) h
  | join left right _ _ =>
    cases s with
    | join outer inner held closed =>
      cases closed
      · exact .inl rfl
      · exact .inr rfl
  | project columns input ih =>
    cases s with
    | project inner closed =>
      exact (maps_project columns input).of_close (Q := IsSpent input) (fun _ => ih) (.project inner closed) h

/-! ## Shut states -/

/-- Every part of a state was closed, each list source exactly once. -/
def IsShut : (p : Plan) → State p → Prop
  | .single _ _, .single _ closed => closed = true
  | .scan, .scan _ closed => closed = true
  | .list _ _ _, .list _ _ closes => closes = 1
  | .rename _ input, .rename inner closed => closed = true ∧ IsShut input inner
  | .join left right, .join outer inner _ closed =>
    closed = true ∧ IsShut left outer ∧ IsShut right inner
  | .project _ input, .project inner closed => closed = true ∧ IsShut input inner

/-- An operator that does not look at its own mark ends with its input. -/
theorem isSpent_of_isShut {s : State p} (h : IsShut p s) : IsSpent p s := by
  induction p with
  | single value type =>
    cases s with
    | single emitted closed => exact .inr h
  | scan =>
    cases s with
    | scan pending closed => exact .inr h
  | list tag schema rows =>
    cases s with
    | list position resets closes =>
      right
      show closes ≠ 0
      rw [h]
      decide
  | rename qualifier input ih =>
    cases s with
    | rename inner closed => exact ih h.2
  | join left right _ _ =>
    cases s with
    | join outer inner held closed => exact .inr h.1
  | project columns input ih =>
    cases s with
    | project inner closed => exact ih h.2

theorem isShut_reset (catalog : Catalog) {s : State p} (h : IsShut p s) :
    IsShut p (reset catalog p s) := by
  induction p with
  | single value type =>
    cases s with
    | single emitted closed => exact h
  | scan =>
    cases s with
    | scan pending closed => exact h
  | list tag schema rows =>
    cases s with
    | list position resets closes => exact h
  | rename qualifier input ih =>
    cases s with
    | rename inner closed => exact ⟨h.1, ih h.2⟩
  | join left right ihl ihr =>
    cases s with
    | join outer inner held closed =>
      obtain ⟨hc, ho, hi⟩ := h
      -- the join fetches from its left input, which is still shut behind its reset
      have hf := fetch_of_isSpent catalog (isSpent_of_isShut (ihl ho))
      simp only [reset, hf]
      exact ⟨hc, ihl ho, ihr hi⟩
  | project columns input ih =>
    cases s with
    | project inner closed => exact ⟨h.1, ih h.2⟩

/-- Only the first close counts. -/
theorem close_of_isShut {s : State p} (h : IsShut p s) : close p s = s := by
  induction p with
  | single value type =>
    cases s with
    | single emitted closed =>
      obtain rfl : closed = true := h
      rfl
  | scan =>
    cases s with
    | scan pending closed =>
      obtain rfl : closed = true := h
      rfl
  | list tag schema rows =>
    cases s with
    | list position resets closes =>
      obtain rfl : closes = 1 := h
      rfl
  | rename qualifier input _ =>
    cases s with
    | rename inner closed =>
      obtain rfl : closed = true := h.1
      rfl
  | join left right _ _ =>
    cases s with
    | join outer inner held closed =>
      obtain rfl : closed = true := h.1
      rfl
  | project columns input _ =>
    cases s with
    | project inner closed =>
      obtain rfl : closed = true := h.1
      rfl

/-- Closing reaches every part of an open state. -/
theorem isShut_close {s : State p} (h : IsOpen p s) : IsShut p (close p s) := by
  induction p with
  | single value type =>
    cases s with
    | single emitted closed => rfl
  | scan =>
    cases s with
    | scan pending closed => rfl
  | list tag schema rows =>
    cases s with
    | list position resets closes =>
      obtain rfl : closes = 0 := h
      rfl
  | rename qualifier input ih =>
    cases s with
    | rename inner closed =>
      obtain ⟨rfl, hi⟩ := h
      exact ⟨rfl, ih hi⟩
  | join left right ihl ihr =>
    cases s with
    | join outer inner held closed =>
      obtain ⟨rfl, ho, hi⟩ := h
      exact ⟨rfl, ihl ho, ihr hi⟩
  | project columns input ih =>
    cases s with
    | project inner closed =>
      obtain ⟨rfl, hi⟩ := h
      exact ⟨rfl, ih hi⟩

/-! ## Counts of closes -/

/-- The tags of the list sources of a plan, from left to right. -/
def tags : Plan → List Nat
  | single _ _ => []
  | scan => []
  | list tag _ _ => [tag]
  | rename _ input => input.tags
  | join left right => left.tags ++ right.tags
  | project _ input => input.tags

/-- Every list source has `n` closes. -/
def ClosedTimes (n : Nat) (p : Plan) (s : State p) : Prop :=
  (tallies p s).map (fun t => (t.tag, t.closes)) = p.tags.map fun tag => (tag, n)

theorem closedTimes_join {n : Nat} {outer : State left} {inner : State right} {held : Option Row}
    {closed : Bool} (hl : ClosedTimes n left outer) (hr : ClosedTimes n right inner) :
    ClosedTimes n (.join left right) (.join outer inner held closed) := by
  simp only [ClosedTimes, tallies, tags, List.map_append] at hl hr ⊢
  rw [hl, hr]

/-- A property of states that operators share with their inputs fixes how often every list source was
closed when it fixes this for a list source alone. -/
theorem closedTimes_of_inputs {n : Nat} {Q : (p : Plan) → State p → Prop}
    (hlist : ∀ {tag schema rows position resets closes},
      Q (.list tag schema rows) (.list position resets closes) → closes = n)
    (hrename : ∀ {qualifier input inner closed},
      Q (.rename qualifier input) (.rename inner closed) → Q input inner)
    (hjoin : ∀ {left right outer inner held closed},
      Q (.join left right) (.join outer inner held closed) → Q left outer ∧ Q right inner)
    (hproject : ∀ {columns input inner closed},
      Q (.project columns input) (.project inner closed) → Q input inner)
    {s : State p} (h : Q p s) : ClosedTimes n p s := by
  induction p with
  | single | scan =>
    cases s
    rfl
  | list tag schema rows =>
    cases s with
    | list position resets closes =>
      obtain rfl := hlist h
      rfl
  | rename qualifier input ih =>
    cases s with
    | rename inner closed => exact ih (hrename h)
  | join left right ihl ihr =>
    cases s with
    | join outer inner held closed => exact closedTimes_join (ihl (hjoin h).1) (ihr (hjoin h).2)
  | project columns input ih =>
    cases s with
    | project inner closed => exact ih (hproject h)

theorem closedTimes_of_isOpen {s : State p} (h : IsOpen p s) : ClosedTimes 0 p s :=
  closedTimes_of_inputs (fun h => h) (fun h => h.2) (fun h => h.2) (fun h => h.2) h

theorem closedTimes_of_isShut {s : State p} (h : IsShut p s) : ClosedTimes 1 p s :=
  closedTimes_of_inputs (fun h => h) (fun h => h.2) (fun h => h.2) (fun h => h.2) h

end PullSql.Plan
