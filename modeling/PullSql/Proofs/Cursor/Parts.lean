import PullSql.Proofs.Cursor.History
import PullSql.Proofs.Plan.Names

/-!
# Parts of cursors

An operator owns the cursors that it draws on and only ever calls them (`forall_inputs_call`). So the
cursors that stand inside a reachable cursor are reachable themselves (`Reachable.part`), and what
holds of every reachable cursor holds at every depth.
-/

namespace PullSql.Cursor

/-- The cursors that the topmost operator draws on. -/
def inputs : Cursor → List Cursor
  | ⟨.single _ _, _⟩ => []
  | ⟨.scan, _⟩ => []
  | ⟨.list _ _ _, _⟩ => []
  | ⟨.rename _ input, .rename inner _⟩ => [⟨input, inner⟩]
  | ⟨.join left right, .join outer inner _ _⟩ => [⟨left, outer⟩, ⟨right, inner⟩]
  | ⟨.project _ input, .project inner _⟩ => [⟨input, inner⟩]

/-- A cursor stands in another one, or is that one itself. -/
inductive Part : Cursor → Cursor → Prop
  | self (c : Cursor) : Part c c
  | input {c d e : Cursor} (hd : d ∈ c.inputs) (he : Part e d) : Part e c

/-- A cursor with any history over plans that are well formed. -/
abbrev AnyHistory : Cursor → Prop := Reachable Plan.WellFormed fun _ => True

section Inputs

variable {P : Cursor → Prop} (hP : ∀ catalog c k, P c → P (call catalog c k)) (catalog : Catalog)

include hP

theorem forall_inputs_fetch_join {left right : Plan} {outer : left.State} {inner : right.State}
    {held : Option Row} {closed : Bool} {answer : Option Row × Plan.State (.join left right)}
    (h : Plan.JoinFetches catalog outer inner held closed answer) (hl : P ⟨left, outer⟩)
    (hr : P ⟨right, inner⟩) : ∀ d ∈ inputs ⟨.join left right, answer.2⟩, P d := by
  have hf : ∀ {p : Plan} {s t : p.State} {row : Option Row}, P ⟨p, s⟩ →
      Plan.fetch catalog p s = (row, t) → P ⟨p, t⟩ := by
    intro p s t row hs ht
    have hc := hP catalog _ .fetch hs
    simpa only [call, fetch, ht] using hc
  cases h with
  | idle => simp [inputs, hl, hr]
  | paired hb => simp [inputs, hl, hf hr hb]
  | ended hb ha => simp [inputs, hf hl ha, hf hr hb]
  | advanced hb ha hn | empty hb ha hn =>
    have hreset := hP catalog _ .reset (hf hr hb)
    simp [inputs, hf hl ha, hf hreset hn]

theorem forall_inputs_call_of_maps {input p : Plan} {row : Row → Row}
    {inner : p.State → input.State} (h : Plan.Maps input p row inner)
    (hinputs : ∀ s, inputs ⟨p, s⟩ = [⟨input, inner s⟩]) (k : Call) {s : p.State}
    (hs : P ⟨input, inner s⟩) : ∀ d ∈ (call catalog ⟨p, s⟩ k).inputs, P d := by
  cases k with
  | fetch =>
    show ∀ d ∈ inputs ⟨p, (Plan.fetch catalog p s).2⟩, P d
    rw [hinputs, h.fetch, List.forall_mem_singleton]
    exact hP catalog _ .fetch hs
  | reset =>
    show ∀ d ∈ inputs ⟨p, Plan.reset catalog p s⟩, P d
    rw [hinputs, h.reset, List.forall_mem_singleton]
    exact hP catalog _ .reset hs
  | close =>
    show ∀ d ∈ inputs ⟨p, Plan.close p s⟩, P d
    rw [hinputs, List.forall_mem_singleton]
    exact h.of_close (Q := fun t => P ⟨input, t⟩) (fun _ ht => hP catalog _ .close ht) s hs

/-- A call on an operator makes nothing but calls on its inputs. -/
theorem forall_inputs_call {c : Cursor} (k : Call) (h : ∀ d ∈ c.inputs, P d) :
    ∀ d ∈ (c.call catalog k).inputs, P d := by
  obtain ⟨p, s⟩ := c
  cases p with
  | single | scan | list => cases k <;> simp [call, fetch, reset, close, inputs]
  | rename qualifier input =>
    cases s with
    | rename inner closed =>
      exact forall_inputs_call_of_maps hP catalog (Plan.maps_rename qualifier input)
        (fun (.rename _ _) => rfl) k (h _ (List.mem_singleton_self _))
  | project columns input =>
    cases s with
    | project inner closed =>
      exact forall_inputs_call_of_maps hP catalog (Plan.maps_project columns input)
        (fun (.project _ _) => rfl) k (h _ (List.mem_singleton_self _))
  | join left right =>
    cases s with
    | join outer inner held closed =>
      have hl : P ⟨left, outer⟩ := h _ List.mem_cons_self
      have hr : P ⟨right, inner⟩ := h _ (List.mem_cons_of_mem _ List.mem_cons_self)
      cases k with
      | fetch =>
        exact forall_inputs_fetch_join hP catalog
          (Plan.joinFetches catalog outer inner held closed) hl hr
      | reset =>
        exact List.forall_mem_cons.mpr ⟨hP catalog _ .fetch (hP catalog _ .reset hl),
          List.forall_mem_singleton.mpr (hP catalog _ .reset hr)⟩
      | close =>
        cases closed
        · exact List.forall_mem_cons.mpr ⟨hP catalog _ .close hl,
            List.forall_mem_singleton.mpr (hP catalog _ .close hr)⟩
        · exact h

end Inputs

theorem AnyHistory.call {c : Cursor} (h : AnyHistory c) (catalog : Catalog) (k : Call) :
    AnyHistory (c.call catalog k) :=
  Reachable.call catalog trivial h

theorem AnyHistory.inputs_join {left right : Cursor} (catalog : Catalog) (hl : AnyHistory left)
    (hr : AnyHistory right) : ∀ d ∈ (join catalog left right).inputs, AnyHistory d :=
  forall_inputs_call (fun catalog _ k h => AnyHistory.call h catalog k) catalog (.reset)
    (c := ⟨.join left.plan right.plan, .join left.state right.state none false⟩)
    (List.forall_mem_cons.mpr ⟨hl, List.forall_mem_singleton.mpr hr⟩)

theorem AnyHistory.inputs {c : Cursor} (h : AnyHistory c) : ∀ d ∈ c.inputs, AnyHistory d := by
  induction h with
  | @opened catalog p hp =>
    cases p with
    | single | scan | list => simp [Cursor.inputs, ofPlan]
    | rename qualifier input =>
      exact List.forall_mem_singleton.mpr (.opened catalog (p := input) hp)
    | project columns input =>
      exact List.forall_mem_singleton.mpr (.opened catalog (p := input) hp.2)
    | join left right =>
      exact AnyHistory.inputs_join catalog (.opened catalog hp.1) (.opened catalog hp.2)
  | rename qualifier hc _ => exact List.forall_mem_singleton.mpr hc
  | join catalog hl hr _ _ => exact AnyHistory.inputs_join catalog hl hr
  | project hc hd _ =>
    obtain ⟨columns, -, rfl⟩ := project_eq_ok hd
    exact List.forall_mem_singleton.mpr hc
  | call catalog _ _ ih =>
    exact forall_inputs_call (fun catalog _ k h => AnyHistory.call h catalog k) catalog _ ih

/-- Every part of a cursor has a history of its own. -/
theorem AnyHistory.part {c d : Cursor} (h : AnyHistory c) (hd : Part d c) : AnyHistory d := by
  induction hd with
  | self => exact h
  | input hd _ ih => exact ih (h.inputs _ hd)

end PullSql.Cursor
