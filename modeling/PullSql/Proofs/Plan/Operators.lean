import PullSql.Plan.State

/-!
# What operators do with their inputs

What holds of plans is shown by induction over them, and this module has what the steps for operators
rest on.

1. A renaming and a projection do the same but for the function that their rows go through: calls are
   handed on to the input (`Maps`, `maps_rename`, `maps_project`).
2. A join answers a fetch in one of five ways. `JoinFetches` lists them, each with the fetches of the
   inputs that it rests on, and `joinFetches` says that there are no others.
-/

namespace PullSql.Plan

/-! ## Operators that map rows -/

/-- The state of what is renamed. -/
def State.renamed {qualifier : String} {input : Plan} : State (.rename qualifier input) → State input
  | .rename inner _ => inner

/-- The state of what is projected. -/
def State.projected {columns : List Column} {input : Plan} :
    State (.project columns input) → State input
  | .project inner _ => inner

/-- An operator that hands its calls on to its input and puts the rows through a function. A close may
stop at the operator, which does so when it comes behind another one. -/
structure Maps (input p : Plan) (row : Row → Row) (inner : State p → State input) : Prop where
  answer (catalog : Catalog) (s : State p) :
    (fetch catalog p s).1 = (fetch catalog input (inner s)).1.map row
  fetch (catalog : Catalog) (s : State p) :
    inner (fetch catalog p s).2 = (fetch catalog input (inner s)).2
  reset (catalog : Catalog) (s : State p) : inner (reset catalog p s) = reset catalog input (inner s)
  close (s : State p) : inner (close p s) = close input (inner s) ∨ inner (close p s) = inner s

theorem maps_rename (qualifier : String) (input : Plan) :
    Maps input (.rename qualifier input) (Row.rename qualifier) State.renamed where
  answer := fun _ (.rename _ _) => rfl
  fetch := fun _ (.rename _ _) => rfl
  reset := fun _ (.rename _ _) => rfl
  close := fun
    | .rename _ false => .inl rfl
    | .rename _ true => .inr rfl

theorem maps_project (columns : List Column) (input : Plan) :
    Maps input (.project columns input) (Row.project columns) State.projected where
  answer := fun _ (.project _ _) => rfl
  fetch := fun _ (.project _ _) => rfl
  reset := fun _ (.project _ _) => rfl
  close := fun
    | .project _ false => .inl rfl
    | .project _ true => .inr rfl

/-- What a close of the input keeps, a close of the operator keeps. -/
theorem Maps.of_close {input p : Plan} {row : Row → Row} {inner : State p → State input}
    (h : Maps input p row inner) {Q : State input → Prop} (hQ : ∀ t, Q t → Q (Plan.close input t))
    (s : State p) (hs : Q (inner s)) : Q (inner (Plan.close p s)) := by
  rcases h.close s with hc | hc <;> rw [hc]
  · exact hQ _ hs
  · exact hs

/-! ## Fetches of a join -/

variable {left right : Plan}

/-- The answers of a join to a fetch, given the left row that it holds and its mark of a close. -/
inductive JoinFetches (catalog : Catalog) (outer : State left) (inner : State right) :
    Option Row → Bool → Option Row × State (.join left right) → Prop
  /-- There is nothing to pair. -/
  | idle {held : Option Row} {closed : Bool} (h : held = none ∨ closed = true) :
      JoinFetches catalog outer inner held closed (none, .join outer inner held closed)
  /-- The left row goes with the next right one. -/
  | paired {a b : Row} {inner₁ : State right} (hr : fetch catalog right inner = (some b, inner₁)) :
      JoinFetches catalog outer inner (some a) false
        (some (a.merge b), .join outer inner₁ (some a) false)
  /-- The right rows are at their end, and so are the left ones. -/
  | ended {a : Row} {inner₁ : State right} {outer₁ : State left}
      (hr : fetch catalog right inner = (none, inner₁))
      (hl : fetch catalog left outer = (none, outer₁)) :
      JoinFetches catalog outer inner (some a) false (none, .join outer₁ inner₁ none false)
  /-- The next left row goes with the first right one. -/
  | advanced {a a' b : Row} {inner₁ inner₂ : State right} {outer₁ : State left}
      (hr : fetch catalog right inner = (none, inner₁))
      (hl : fetch catalog left outer = (some a', outer₁))
      (hn : fetch catalog right (reset catalog right inner₁) = (some b, inner₂)) :
      JoinFetches catalog outer inner (some a) false
        (some (a'.merge b), .join outer₁ inner₂ (some a') false)
  /-- There is a next left row, but no right row even behind a reset. -/
  | empty {a a' : Row} {inner₁ inner₂ : State right} {outer₁ : State left}
      (hr : fetch catalog right inner = (none, inner₁))
      (hl : fetch catalog left outer = (some a', outer₁))
      (hn : fetch catalog right (reset catalog right inner₁) = (none, inner₂)) :
      JoinFetches catalog outer inner (some a) false (none, .join outer₁ inner₂ none false)

theorem joinFetches (catalog : Catalog) (outer : State left) (inner : State right)
    (held : Option Row) (closed : Bool) :
    JoinFetches catalog outer inner held closed
      (fetch catalog (.join left right) (.join outer inner held closed)) := by
  cases closed with
  | true => exact .idle (.inr rfl)
  | false =>
    cases held with
    | none => exact .idle (.inl rfl)
    | some a =>
      simp only [fetch, Bool.false_eq_true, if_false]
      rcases hr : fetch catalog right inner with ⟨_ | b, inner₁⟩
      · rcases hl : fetch catalog left outer with ⟨_ | a', outer₁⟩
        · exact .ended hr hl
        · rcases hn : fetch catalog right (reset catalog right inner₁) with ⟨_ | b, inner₂⟩
          · simp only [hn]
            exact .empty hr hl hn
          · simp only [hn]
            exact .advanced hr hl hn
      · exact .paired hr

end PullSql.Plan
