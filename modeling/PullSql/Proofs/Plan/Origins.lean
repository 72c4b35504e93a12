import PullSql.Proofs.Plan.Operators

/-!
# Where the rows of a plan come from

Every row that a plan hands out is made of rows of its sources in the way that the plan says, whatever
calls came before and however the catalog changed between them. `Makes` says so without any catalog or
state. A join may pair a row that it fetched long ago, so the invariant on states is that the rows which
joins hold are made in this way (`HeldMade`); fetches and resets keep it (`making`).
-/

namespace PullSql.Plan

/-- The rows that a plan stands for over one catalog or another. -/
inductive Makes : Plan → Row → Prop
  | single (value : Value) (type : DataType) : Makes (.single value type) (Row.single value)
  | scan (name : String) : Makes .scan (Row.ofName name)
  | list {tag : Nat} {schema : Schema} {rows : List Row} {row : Row} (h : row ∈ rows) :
      Makes (.list tag schema rows) row
  | rename (qualifier : String) {input : Plan} {row : Row} (h : Makes input row) :
      Makes (.rename qualifier input) (row.rename qualifier)
  | join {left right : Plan} {a b : Row} (ha : Makes left a) (hb : Makes right b) :
      Makes (.join left right) (a.merge b)
  | project (columns : List Column) {input : Plan} {row : Row} (h : Makes input row) :
      Makes (.project columns input) (row.project columns)

/-- Each row that a join holds is one of its left side. -/
def HeldMade : (p : Plan) → State p → Prop
  | .single _ _ | .scan | .list _ _ _ => fun _ => True
  | .rename _ input => fun | .rename inner _ => HeldMade input inner
  | .join left right => fun
    | .join outer inner held _ =>
      (∀ a ∈ held, left.Makes a) ∧ HeldMade left outer ∧ HeldMade right inner
  | .project _ input => fun | .project inner _ => HeldMade input inner

/-- What a fetch answers and leaves. -/
def Answers (p : Plan) (answer : Option Row × State p) : Prop :=
  (∀ row ∈ answer.1, p.Makes row) ∧ HeldMade p answer.2

/-- What a fetch and a reset do to the states of a plan. -/
structure Making (catalog : Catalog) (p : Plan) : Prop where
  fetch : ∀ s, HeldMade p s → Answers p (fetch catalog p s)
  reset : ∀ s, HeldMade p s → HeldMade p (reset catalog p s)

section Making

variable {catalog : Catalog} {p left right : Plan}

theorem makes_of_mem_nextName {pending : List String} {row : Row}
    (h : row ∈ (nextName catalog pending).1) : scan.Makes row := by
  induction pending with
  | nil => cases h
  | cons name pending ih =>
    rw [nextName] at h
    split at h
    · cases h
      exact .scan name
    · exact ih h

theorem making_single (value : Value) (type : DataType) : Making catalog (.single value type) := by
  refine ⟨fun s _ => ⟨fun row h => ?_, trivial⟩, fun _ _ => trivial⟩
  cases s with
  | single emitted closed =>
    rw [Plan.fetch] at h
    split at h
    · cases h
    · cases h
      exact .single value type

theorem making_scan : Making catalog .scan := by
  refine ⟨fun s _ => ⟨fun row h => ?_, trivial⟩, fun _ _ => trivial⟩
  cases s with
  | scan pending closed =>
    rw [Plan.fetch] at h
    split at h
    · cases h
    · exact makes_of_mem_nextName h

theorem making_list (tag : Nat) (schema : Schema) (rows : List Row) :
    Making catalog (.list tag schema rows) := by
  refine ⟨fun s _ => ⟨fun row h => ?_, trivial⟩, fun _ _ => trivial⟩
  cases s with
  | list position resets closes =>
    rw [Plan.fetch] at h
    split at h
    · rename_i row' hrow
      cases h
      split at hrow
      · exact .list (List.mem_of_getElem? hrow)
      · cases hrow
    · cases h

theorem Making.of_maps {input : Plan} {row : Row → Row} {inner : State p → State input}
    (h : Making catalog input) (hm : Maps input p row inner)
    (hheld : ∀ s, HeldMade p s ↔ HeldMade input (inner s))
    (hmakes : ∀ r, input.Makes r → p.Makes (row r)) : Making catalog p := by
  refine ⟨fun s hs => ⟨fun r hr => ?_, ?_⟩, fun s hs => ?_⟩
  · rw [hm.answer] at hr
    obtain ⟨a, ha, rfl⟩ := Option.map_eq_some_iff.mp hr
    exact hmakes a ((h.fetch _ ((hheld s).mp hs)).1 a ha)
  · rw [hheld, hm.fetch]
    exact (h.fetch _ ((hheld s).mp hs)).2
  · rw [hheld, hm.reset]
    exact h.reset _ ((hheld s).mp hs)

/-- The five ways in which a join answers. -/
theorem answers_join (hl : Making catalog left) (hr : Making catalog right) {outer : State left}
    {inner : State right} {held : Option Row} {closed : Bool}
    {answer : Option Row × State (.join left right)}
    (h : JoinFetches catalog outer inner held closed answer)
    (hs : HeldMade (.join left right) (.join outer inner held closed)) :
    Answers (.join left right) answer := by
  obtain ⟨hheld, houter, hinner⟩ := hs
  have hfetch : ∀ {q : Plan} {s t : State q} {row : Option Row}, Making catalog q → HeldMade q s →
      Plan.fetch catalog q s = (row, t) → Answers q (row, t) := fun hq hs hf => hf ▸ hq.fetch _ hs
  cases h with
  | idle => exact ⟨by simp, hheld, houter, hinner⟩
  | @paired a b inner₁ hf =>
    obtain ⟨hb, hinner₁⟩ := hfetch hr hinner hf
    refine ⟨?_, hheld, houter, hinner₁⟩
    rintro _ ⟨⟩
    exact .join (hheld a rfl) (hb b rfl)
  | ended hf hg => exact ⟨by simp, by simp, (hfetch hl houter hg).2, (hfetch hr hinner hf).2⟩
  | @advanced a a' b inner₁ inner₂ outer₁ hf hg hk =>
    obtain ⟨ha, houter₁⟩ := hfetch hl houter hg
    obtain ⟨hb, hinner₂⟩ := hfetch hr (hr.reset _ (hfetch hr hinner hf).2) hk
    refine ⟨?_, ha, houter₁, hinner₂⟩
    rintro _ ⟨⟩
    exact .join (ha a' rfl) (hb b rfl)
  | empty hf hg hk =>
    have hinner₂ := hfetch hr (hr.reset _ (hfetch hr hinner hf).2) hk
    exact ⟨by simp, by simp, (hfetch hl houter hg).2, hinner₂.2⟩

theorem making_join (hl : Making catalog left) (hr : Making catalog right) :
    Making catalog (.join left right) := by
  refine ⟨fun s hs => ?_, fun s hs => ?_⟩ <;> cases s with
  | join outer inner held closed => ?_
  · exact answers_join hl hr (joinFetches catalog outer inner held closed) hs
  · obtain ⟨-, houter, hinner⟩ := hs
    obtain ⟨hrow, hstate⟩ := hl.fetch _ (hl.reset outer houter)
    exact ⟨hrow, hstate, hr.reset inner hinner⟩

theorem making (catalog : Catalog) (p : Plan) : Making catalog p := by
  induction p with
  | single value type => exact making_single value type
  | scan => exact making_scan
  | list tag schema rows => exact making_list tag schema rows
  | rename qualifier input ih =>
    exact ih.of_maps (maps_rename qualifier input) (fun (.rename _ _) => .rfl) fun _ => .rename qualifier
  | join left right ihl ihr => exact making_join ihl ihr
  | project columns input ih =>
    exact ih.of_maps (maps_project columns input) (fun (.project _ _) => .rfl) fun _ => .project columns

/-- A closed join holds nothing. -/
theorem heldMade_close {s : State p} (h : HeldMade p s) : HeldMade p (close p s) := by
  induction p with
  | single | scan | list => trivial
  | rename qualifier input ih =>
    cases s with
    | rename inner closed =>
      exact (maps_rename qualifier input).of_close (Q := HeldMade input) (fun _ => ih) (.rename inner closed) h
  | join left right ihl ihr =>
    cases s with
    | join outer inner held closed =>
      cases closed
      · exact ⟨by simp, ihl h.2.1, ihr h.2.2⟩
      · exact h
  | project columns input ih =>
    cases s with
    | project inner closed =>
      exact (maps_project columns input).of_close (Q := HeldMade input) (fun _ => ih) (.project inner closed) h

theorem heldMade_start (catalog : Catalog) (p : Plan) : HeldMade p (start catalog p) := by
  induction p with
  | single | scan | list => trivial
  | rename qualifier input ih => exact ih
  | project columns input ih => exact ih
  | join left right ihl ihr =>
    exact (making catalog (.join left right)).reset
      (.join (start catalog left) (start catalog right) none false) ⟨by simp, ihl, ihr⟩

end Making

end PullSql.Plan
