import PullSql.Plan

/-!
# States of a plan

How far the rows of a plan have been handed out. Every operator keeps the states of its inputs; a join
also holds the left row that is being paired, one ahead of the pairs.

* `start` is the state of a new cursor, `reset` goes back to the first row, `fetch` gives the next
  row and `close` ends the rows for good.
* `remaining` bounds the number of rows that are still to come.
-/

namespace PullSql.Plan

/-- How far a plan has come. -/
inductive State : Plan → Type where
  | single {value : Value} {type : DataType} (emitted closed : Bool) : State (.single value type)
  /-- The names still to be listed, as the catalog held them at the start or at the last reset. -/
  | scan (pending : List String) (closed : Bool) : State .scan
  /-- The position in the rows, and how often the source was reset and closed. -/
  | list {tag : Nat} {schema : Schema} {rows : List Row} (position resets closes : Nat) :
      State (.list tag schema rows)
  | rename {qualifier : String} {input : Plan} (inner : State input) (closed : Bool) :
      State (.rename qualifier input)
  /-- The states of both inputs and the left row that is being paired. -/
  | join {left right : Plan} (outer : State left) (inner : State right) (held : Option Row)
      (closed : Bool) : State (.join left right)
  | project {columns : List Column} {input : Plan} (inner : State input) (closed : Bool) :
      State (.project columns input)

/-! ## The four operations -/

/-- The first live name of a list, as a row, and the names behind it. -/
def nextName (catalog : Catalog) : List String → Option Row × List String
  | [] => (none, [])
  | name :: rest =>
    if catalog.isLive name then (some (Row.ofName name), rest) else nextName catalog rest

mutual

/-- Back to the first row. Inputs are reset first, and a join fetches its first left row at once. -/
def reset (catalog : Catalog) : (p : Plan) → State p → State p
  | .single _ _, .single _ closed => .single false closed
  | .scan, .scan _ closed => .scan catalog.scanNames closed
  | .list _ _ _, .list _ resets closes => .list 0 (resets + 1) closes
  | .rename _ input, .rename inner closed => .rename (reset catalog input inner) closed
  | .join left right, .join outer inner _ closed =>
    let (held, outer) := fetch catalog left (reset catalog left outer)
    .join outer (reset catalog right inner) held closed
  | .project _ input, .project inner closed => .project (reset catalog input inner) closed
termination_by structural p => p

/-- The next row, if there is one. A join pairs the left row it holds with the right rows; when these
end it fetches a left row and starts the right side over, and an empty right side ends the join. -/
def fetch (catalog : Catalog) : (p : Plan) → State p → Option Row × State p
  | .single value _, .single emitted closed =>
    if emitted || closed then (none, .single emitted closed)
    else (some (Row.single value), .single true closed)
  | .scan, .scan pending closed =>
    if closed then (none, .scan pending closed)
    else
      let (row, pending) := nextName catalog pending
      (row, .scan pending closed)
  | .list _ _ rows, .list position resets closes =>
    match if closes = 0 then rows[position]? else none with
    | some row => (some row, .list (position + 1) resets closes)
    | none => (none, .list position resets closes)
  | .rename qualifier input, .rename inner closed =>
    let (row, inner) := fetch catalog input inner
    (row.map (Row.rename qualifier), .rename inner closed)
  | .join left right, .join outer inner held closed =>
    match if closed then none else held with
    | none => (none, .join outer inner held closed)
    | some a =>
      match fetch catalog right inner with
      | (some b, inner) => (some (a.merge b), .join outer inner held closed)
      | (none, inner) =>
        match fetch catalog left outer with
        | (none, outer) => (none, .join outer inner none closed)
        | (some a, outer) =>
          match fetch catalog right (reset catalog right inner) with
          | (some b, inner) => (some (a.merge b), .join outer inner (some a) closed)
          | (none, inner) => (none, .join outer inner none closed)
  | .project columns input, .project inner closed =>
    let (row, inner) := fetch catalog input inner
    (row.map (Row.project columns), .project inner closed)
termination_by structural p => p

end

/-- The end of the rows for good. Operators close their inputs, and only the first call counts. -/
def close : (p : Plan) → State p → State p
  | .single _ _, .single emitted _ => .single emitted true
  | .scan, .scan pending closed => .scan (if closed then pending else []) true
  | .list _ _ _, .list position resets closes => .list position resets (max closes 1)
  | .rename _ input, .rename inner closed =>
    .rename (if closed then inner else close input inner) true
  | .join left right, .join outer inner held closed =>
    if closed then .join outer inner held true
    else .join (close left outer) (close right inner) none true
  | .project _ input, .project inner closed =>
    .project (if closed then inner else close input inner) true

/-- The state of a new cursor: every input is new, and a join starts with a reset. -/
def start (catalog : Catalog) : (p : Plan) → State p
  | .single _ _ => .single false false
  | .scan => .scan catalog.scanNames false
  | .list _ _ _ => .list 0 0 0
  | .rename _ input => .rename (start catalog input) false
  | .join left right =>
    reset catalog (.join left right) (.join (start catalog left) (start catalog right) none false)
  | .project _ input => .project (start catalog input) false

/-! ## Views of a state -/

/-- A bound on the number of rows still to come, as long as the catalog stays the same. -/
def remaining (catalog : Catalog) : (p : Plan) → State p → Nat
  | .single _ _, .single emitted _ => if emitted then 0 else 1
  | .scan, .scan pending _ => pending.length
  | .list _ _ rows, .list position _ _ => rows.length - position
  | .rename _ input, .rename inner _ => remaining catalog input inner
  | .join left right, .join outer inner _ _ =>
    (remaining catalog left outer + 1) * right.count catalog + remaining catalog right inner
  | .project _ input, .project inner _ => remaining catalog input inner

/-- How often a source was reset and closed. -/
structure Tally where
  tag : Nat
  resets : Nat
  closes : Nat
  deriving DecidableEq, Repr

/-- The tallies of the counted sources of a plan, from left to right. -/
def tallies : (p : Plan) → State p → List Tally
  | .single _ _, _ => []
  | .scan, _ => []
  | .list tag _ _, .list _ resets closes => [⟨tag, resets, closes⟩]
  | .rename _ input, .rename inner _ => tallies input inner
  | .join left right, .join outer inner _ _ => tallies left outer ++ tallies right inner
  | .project _ input, .project inner _ => tallies input inner

end PullSql.Plan
