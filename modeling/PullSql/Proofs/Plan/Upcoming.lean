import PullSql.Proofs.Plan.Operators
import PullSql.Proofs.Row.Merge

/-!
# What a state hands out

Two lists say all that fetches and resets can bring to light of a state, as long as the catalog
stays the same: the rows up to the next reset, `upcoming`, and the rows behind any reset, `replay`. The
parts of the state may be closed or not.

1. A fetch takes the first row of `upcoming`, or finds none, and leaves `replay` as it is
   (`Steps.fetch`).
2. A reset turns `upcoming` into `replay` (`Steps.reset`).

Fetching and resetting a join fall back on each other for its inputs, so 1 and 2 go through one
induction over the plan, `steps`.
-/

namespace PullSql.Plan

/-- The rows that a state hands out from its next reset on. -/
def replay (catalog : Catalog) : (p : Plan) → State p → List Row
  | .single value _, .single _ closed => if closed then [] else [Row.single value]
  | .scan, .scan _ closed => if closed then [] else catalog.scanNames.map Row.ofName
  | .list _ _ rows, .list _ _ closes => if closes = 0 then rows else []
  | .rename qualifier input, .rename inner _ =>
    (replay catalog input inner).map (Row.rename qualifier)
  | .join left right, .join outer inner _ closed =>
    if closed then [] else Row.pairs (replay catalog left outer) (replay catalog right inner)
  | .project columns input, .project inner _ =>
    (replay catalog input inner).map (Row.project columns)

/-- The rows that a state hands out up to its next reset. -/
def upcoming (catalog : Catalog) : (p : Plan) → State p → List Row
  | .single value _, .single emitted closed => if emitted || closed then [] else [Row.single value]
  | .scan, .scan pending closed =>
    if closed then [] else (pending.filter catalog.isLive).map Row.ofName
  | .list _ _ rows, .list position _ closes => if closes = 0 then rows.drop position else []
  | .rename qualifier input, .rename inner _ =>
    (upcoming catalog input inner).map (Row.rename qualifier)
  | .join left right, .join outer inner held closed =>
    match if closed then none else held with
    | none => []
    | some a =>
      -- the right side is reset between two left rows, and only then
      (upcoming catalog right inner).map a.merge ++
        Row.pairs (upcoming catalog left outer) (replay catalog right inner)
  | .project columns input, .project inner _ =>
    (upcoming catalog input inner).map (Row.project columns)

/-! ## Names of a scan -/

theorem nextName_fst (catalog : Catalog) (pending : List String) :
    (nextName catalog pending).1 = ((pending.filter catalog.isLive).map Row.ofName).head? := by
  induction pending with
  | nil => rfl
  | cons name pending ih =>
    by_cases h : catalog.isLive name
    · simp [nextName, h]
    · simpa [nextName, h] using ih

theorem filter_nextName_snd (catalog : Catalog) (pending : List String) :
    (nextName catalog pending).2.filter catalog.isLive = (pending.filter catalog.isLive).tail := by
  induction pending with
  | nil => rfl
  | cons name pending ih =>
    by_cases h : catalog.isLive name
    · simp [nextName, h]
    · simpa [nextName, h] using ih

theorem isLive_of_mem_scanNames {catalog : Catalog} {name : String}
    (h : name ∈ catalog.scanNames) : catalog.isLive name = true := by
  rcases List.mem_cons.mp h with rfl | h
  · simp [Catalog.isLive, Catalog.isOwnName, Name.same]
  · obtain ⟨r, hr, rfl⟩ := List.mem_map.mp h
    have hc : catalog.contains r.name = true := by
      simp only [Catalog.contains, List.any_eq_true, beq_iff_eq]
      exact ⟨r, hr, rfl⟩
    simp [Catalog.isLive, hc]

/-- A scan that has just looked at the catalog passes over no name. -/
theorem filter_isLive_scanNames (catalog : Catalog) :
    catalog.scanNames.filter catalog.isLive = catalog.scanNames :=
  List.filter_eq_self.mpr fun _ h => isLive_of_mem_scanNames h

/-! ## Fetching and resetting -/

/-- An answer of a fetch that takes the first of the given rows, or finds none, and keeps the rows
behind a reset. -/
def Hands (catalog : Catalog) {p : Plan} (rows again : List Row) (answer : Option Row × State p) :
    Prop :=
  answer.1 = rows.head? ∧ upcoming catalog p answer.2 = rows.tail ∧ replay catalog p answer.2 = again

/-- What a fetch and a reset do to the states of a plan. -/
structure Steps (catalog : Catalog) (p : Plan) : Prop where
  fetch : ∀ s, Hands catalog (upcoming catalog p s) (replay catalog p s) (fetch catalog p s)
  reset : ∀ s, upcoming catalog p (reset catalog p s) = replay catalog p s ∧
    replay catalog p (reset catalog p s) = replay catalog p s

section Steps

variable {catalog : Catalog} {p left right : Plan}

theorem Steps.some {s t : State p} {row : Row} (h : Steps catalog p)
    (hf : Plan.fetch catalog p s = (some row, t)) :
    upcoming catalog p s = row :: upcoming catalog p t ∧
      replay catalog p t = replay catalog p s := by
  obtain ⟨h1, h2, h3⟩ := h.fetch s
  rw [hf] at h1 h2 h3
  refine ⟨?_, h3⟩
  rw [h2]
  exact List.eq_cons_of_mem_head? h1.symm

theorem Steps.none {s t : State p} (h : Steps catalog p)
    (hf : Plan.fetch catalog p s = (none, t)) :
    upcoming catalog p s = [] ∧ upcoming catalog p t = [] ∧
      replay catalog p t = replay catalog p s := by
  obtain ⟨h1, h2, h3⟩ := h.fetch s
  rw [hf] at h1 h2 h3
  have h4 : upcoming catalog p s = [] := List.head?_eq_none_iff.mp h1.symm
  rw [h4] at h2
  exact ⟨h4, h2, h3⟩

theorem steps_single (value : Value) (type : DataType) : Steps catalog (.single value type) := by
  refine ⟨fun s => ?_, fun s => ?_⟩
  · cases s with
    | single emitted closed => cases emitted <;> cases closed <;> exact ⟨rfl, rfl, rfl⟩
  · cases s with
    | single emitted closed => exact ⟨rfl, rfl⟩

theorem steps_scan : Steps catalog .scan := by
  refine ⟨fun s => ?_, fun s => ?_⟩
  · cases s with
    | scan pending closed =>
      cases closed with
      | true => exact ⟨rfl, rfl, rfl⟩
      | false =>
        refine ⟨nextName_fst catalog pending, ?_, rfl⟩
        simp [fetch, upcoming, filter_nextName_snd]
  · cases s with
    | scan pending closed => simp [reset, upcoming, replay, filter_isLive_scanNames]

theorem steps_list (tag : Nat) (schema : Schema) (rows : List Row) :
    Steps catalog (.list tag schema rows) := by
  refine ⟨fun s => ?_, fun s => ⟨?_, ?_⟩⟩
  · cases s with
    | list position resets closes =>
      by_cases hc : closes = 0
      · rcases hr : rows[position]? with _ | row
        · have hd : rows.drop position = [] :=
            List.drop_eq_nil_of_le (List.getElem?_eq_none_iff.mp hr)
          simp [Hands, fetch, upcoming, replay, hc, hr, hd]
        · simp [Hands, fetch, upcoming, replay, hc, hr]
      · simp [Hands, fetch, upcoming, replay, hc]
  · cases s
    rfl
  · cases s
    rfl

/-- An operator that maps rows hands out the rows of its input, mapped. -/
theorem Steps.of_maps {input : Plan} {row : Row → Row} {inner : State p → State input}
    (h : Steps catalog input) (hm : Maps input p row inner)
    (hupcoming : ∀ s, upcoming catalog p s = (upcoming catalog input (inner s)).map row)
    (hreplay : ∀ s, replay catalog p s = (replay catalog input (inner s)).map row) :
    Steps catalog p := by
  refine ⟨fun s => ?_, fun s => ?_⟩
  · obtain ⟨h1, h2, h3⟩ := h.fetch (inner s)
    refine ⟨?_, ?_, ?_⟩
    · rw [hm.answer, h1, hupcoming, List.head?_map]
    · rw [hupcoming, hm.fetch, h2, hupcoming, List.map_tail]
    · rw [hreplay, hm.fetch, h3, hreplay]
  · obtain ⟨h1, h2⟩ := h.reset (inner s)
    exact ⟨by rw [hupcoming, hm.reset, h1, hreplay], by rw [hreplay, hm.reset, h2, hreplay]⟩

/-- A join takes its next row from the right side, else from the next left row and the right side
started over, else it ends. -/
theorem hands_join (hl : Steps catalog left) (hr : Steps catalog right) {outer : State left}
    {inner : State right} {held : Option Row} {closed : Bool}
    {answer : Option Row × State (.join left right)}
    (h : JoinFetches catalog outer inner held closed answer) :
    Hands catalog (upcoming catalog (.join left right) (.join outer inner held closed))
      (replay catalog (.join left right) (.join outer inner held closed)) answer := by
  cases h with
  | idle h =>
    obtain rfl | rfl := h
    · cases closed <;> exact ⟨rfl, rfl, rfl⟩
    · exact ⟨rfl, rfl, rfl⟩
  | paired hf =>
    obtain ⟨h1, hi⟩ := hr.some hf
    simp [Hands, upcoming, replay, h1, hi]
  | ended hf hg =>
    obtain ⟨h1, -, hi⟩ := hr.none hf
    obtain ⟨h2, -, ho⟩ := hl.none hg
    simp [Hands, upcoming, replay, Row.pairs, h1, h2, ho, hi]
  | @advanced _ _ _ inner₁ _ _ hf hg hk =>
    obtain ⟨h1, -, hi⟩ := hr.none hf
    obtain ⟨h2, ho⟩ := hl.some hg
    obtain ⟨h3, hi₁⟩ := hr.reset inner₁
    obtain ⟨h4, hi₂⟩ := hr.some hk
    rw [h3, hi] at h4
    rw [hi₁, hi] at hi₂
    simp [Hands, upcoming, replay, Row.pairs, h1, h2, h4, ho, hi₂]
  | @empty _ _ inner₁ _ _ hf hg hk =>
    obtain ⟨h1, -, hi⟩ := hr.none hf
    obtain ⟨-, ho⟩ := hl.some hg
    obtain ⟨h3, hi₁⟩ := hr.reset inner₁
    obtain ⟨h4, -, hi₂⟩ := hr.none hk
    rw [h3, hi] at h4
    -- no left row that is still to come would find a partner
    have h5 : Row.pairs (upcoming catalog left outer) (replay catalog right inner) = [] := by
      simp only [Row.pairs, h4, List.map_nil, List.flatMap_eq_nil_iff, implies_true]
    simp [Hands, upcoming, replay, h1, h5, hi, ho, hi₁, hi₂]

theorem reset_join (hl : Steps catalog left) (hr : Steps catalog right) (outer : State left)
    (inner : State right) (held : Option Row) :
    let s := State.join outer inner held false
    upcoming catalog (.join left right) (reset catalog (.join left right) s) =
        replay catalog (.join left right) s ∧
      replay catalog (.join left right) (reset catalog (.join left right) s) =
        replay catalog (.join left right) s := by
  obtain ⟨h1, ho⟩ := hl.reset outer
  obtain ⟨h2, hi⟩ := hr.reset inner
  simp only [reset]
  rcases hf : fetch catalog left (reset catalog left outer) with ⟨_ | a, outer₁⟩
  · obtain ⟨h3, -, ho'⟩ := hl.none hf
    rw [h1] at h3
    simp [upcoming, replay, Row.pairs, h3, ho, ho']
  · obtain ⟨h3, ho'⟩ := hl.some hf
    rw [h1] at h3
    simp [upcoming, replay, Row.pairs, h2, h3, hi, ho, ho']

theorem steps (catalog : Catalog) (p : Plan) : Steps catalog p := by
  induction p with
  | single value type => exact steps_single value type
  | scan => exact steps_scan
  | list tag schema rows => exact steps_list tag schema rows
  | rename qualifier input ih =>
    exact ih.of_maps (maps_rename qualifier input) (fun (.rename _ _) => rfl) fun (.rename _ _) => rfl
  | project columns input ih =>
    exact ih.of_maps (maps_project columns input) (fun (.project _ _) => rfl) fun (.project _ _) => rfl
  | join left right hl hr =>
    refine ⟨fun s => ?_, fun s => ?_⟩
    · cases s with
      | join outer inner held closed =>
        exact hands_join hl hr (joinFetches catalog outer inner held closed)
    · cases s with
      | join outer inner held closed =>
        cases closed with
        | true => exact ⟨rfl, rfl⟩
        | false => exact reset_join hl hr outer inner held

end Steps

/-! ## How many rows are handed out -/

theorem length_replay_le_count (catalog : Catalog) (p : Plan) (s : State p) :
    (replay catalog p s).length ≤ p.count catalog := by
  induction p with
  | single value type =>
    cases s with
    | single emitted closed => cases closed <;> simp [replay, count]
  | scan =>
    cases s with
    | scan pending closed => cases closed <;> simp [replay, count]
  | list tag schema rows =>
    cases s with
    | list position resets closes =>
      simp only [replay, count]
      split <;> simp
  | rename qualifier input ih =>
    cases s with
    | rename inner closed => simpa [replay, count] using ih inner
  | project columns input ih =>
    cases s with
    | project inner closed => simpa [replay, count] using ih inner
  | join left right hl hr =>
    cases s with
    | join outer inner held closed =>
      cases closed
      · simpa [replay, count, Row.length_pairs] using Nat.mul_le_mul (hl outer) (hr inner)
      · simp [replay]

/-- A drain fetches often enough. -/
theorem length_upcoming_le_remaining (catalog : Catalog) (p : Plan) (s : State p) :
    (upcoming catalog p s).length ≤ remaining catalog p s := by
  induction p with
  | single value type =>
    cases s with
    | single emitted closed => cases emitted <;> cases closed <;> simp [upcoming, remaining]
  | scan =>
    cases s with
    | scan pending closed =>
      cases closed
      · simpa [upcoming, remaining] using List.length_filter_le _ pending
      · simp [upcoming]
  | list tag schema rows =>
    cases s with
    | list position resets closes =>
      simp only [upcoming, remaining]
      split <;> simp
  | rename qualifier input ih =>
    cases s with
    | rename inner closed => simpa [upcoming, remaining] using ih inner
  | project columns input ih =>
    cases s with
    | project inner closed => simpa [upcoming, remaining] using ih inner
  | join left right hl hr =>
    cases s with
    | join outer inner held closed =>
      rcases hc : if closed then none else held with _ | a
      · simp [upcoming, hc]
      · have h1 : (upcoming catalog left outer).length * (replay catalog right inner).length ≤
            remaining catalog left outer * right.count catalog :=
          Nat.mul_le_mul (hl outer) (length_replay_le_count catalog right inner)
        have h2 := hr inner
        simp only [upcoming, hc, remaining, List.length_append, List.length_map, Row.length_pairs,
          Nat.add_mul]
        omega

/-! ## Closed joins -/

/-- Nothing comes out of a join that was closed, whatever its inputs do. -/
theorem upcoming_close_join (catalog : Catalog) {left right : Plan} (s : State (.join left right)) :
    upcoming catalog (.join left right) (close (.join left right) s) = [] ∧
      replay catalog (.join left right) (close (.join left right) s) = [] := by
  cases s with
  | join outer inner held closed => cases closed <;> exact ⟨rfl, rfl⟩

end PullSql.Plan
