import Mathlib.Data.List.ProdSigma
import PullSql.Proofs.Column.Compile
import PullSql.Proofs.Cursor.Replay
import PullSql.Proofs.Row.Values

/-!
# Names on both sides of a join

Over a join a name means the first field that it matches, one of the left side if there is any. The
joined row, by contrast, keeps under every name what was written last, and the right side writes last.

1. The type of a column that reads a field of the left side is the type of that field.
2. Its values come from the left rows as long as no field of the right side has exactly that name, and
   from the right rows otherwise (`projected_values_of_left_field`).

Names that differ in letter case only are different names to a row, so they hide nothing.
-/

namespace PullSql

/-- Whether a type announces values like this one. -/
def DataType.announces : DataType → Value → Bool
  | integer, .integer _ => true
  | double, .double _ => true
  | number, .integer _ | number, .double _ => true
  | text, .text _ | string, .text _ => true
  | _, _ => false

/-! ## First matches -/

namespace Schema

theorem resolve?_append_of_eq_some {s : Schema} {x : String} {f : Field} (h : s.resolve? x = some f)
    (t : Schema) : resolve? (s ++ t) x = some f := by
  unfold resolve? at h ⊢
  rw [List.find?_append, h, Option.some_or]

end Schema

/-! ## Last values -/

namespace Row

/-- The row has the names of the schema and no others. -/
def Carries (r : Row) (s : Schema) : Prop := ∀ name, name ∈ r.names ↔ name ∈ s.names

theorem Fits.carries {r : Row} {s : Schema} (h : r.Fits s) : r.Carries s := by
  intro name
  rw [h, List.mem_eraseDups]

/-- A merged row reads the names of the second schema from the second row and all others from the
first one. -/
theorem get?_merge_of_carries {b : Row} {t : Schema} (hb : b.Carries t) (a : Row) (x : String) :
    (a.merge b).get? x = (if x ∈ t.names then b else a).get? x := by
  rw [get?_merge_eq_ite]
  simp only [hb x]

end Row

/-! ## Columns over a join -/

namespace Cursor

theorem rows_join_eq_map_product (catalog : Catalog) (left right : Plan) :
    (Plan.join left right).rows catalog =
      ((left.rows catalog).product (right.rows catalog)).map fun p => p.1.merge p.2 := by
  show (left.rows catalog).flatMap _ = (List.flatMap _ _).map _
  rw [List.map_flatMap]
  refine List.flatMap_congr fun a _ => ?_
  rw [List.map_map]
  rfl

/-- A column that reads one field can be put on any cursor that has it. -/
theorem project_field {c : Cursor} {x : String} {f : Field} (h : c.schema.resolve? x = some f)
    (out : String) :
    c.project [(out, .field x)] =
      .ok ⟨.project [⟨out, f.type, .field f.name⟩] c.plan, .project c.state false⟩ := by
  have hc : Column.compileAll c.schema [(out, .field x)] = .ok [⟨out, f.type, .field f.name⟩] := by
    refine mapM_eq_ok_iff.mpr (.cons (Column.compile_eq_ok.mpr ⟨rfl, ?_⟩) .nil)
    exact Column.compileExpr_field.mpr ⟨f, h, rfl⟩
  unfold project
  rw [hc]

section LeftField

variable {catalog : Catalog} {left right : Cursor} {x : String} {f : Field}

/-- The one of two joined rows from which a field of the left side is read. -/
def readFrom (right : Cursor) (f : Field) (p : Row × Row) : Row :=
  if f.name ∈ right.schema.names then p.2 else p.1

/-- What is read from it. -/
def joinedValue (right : Cursor) (f : Field) (p : Row × Row) : Value :=
  ((readFrom right f p).get? f.name).getD .null

/-- Whichever of the two rows it is, it has the field. -/
theorem get?_readFrom (ha : ∀ a ∈ left.plan.rows catalog, a.Carries left.schema)
    (hb : ∀ b ∈ right.plan.rows catalog, b.Carries right.schema)
    (hf : left.schema.resolve? x = some f) {p : Row × Row}
    (hp : p ∈ (left.plan.rows catalog).product (right.plan.rows catalog)) :
    (readFrom right f p).get? f.name = some (joinedValue right f p) := by
  obtain ⟨h1, h2⟩ := List.pair_mem_product.mp hp
  have hname : f.name ∈ (readFrom right f p).names := by
    unfold readFrom
    split
    · rename_i hr
      exact (hb p.2 h2 f.name).mpr hr
    · exact (ha p.1 h1 f.name).mpr (Column.mem_names_of_resolve? hf)
  obtain ⟨v, hv⟩ := Option.isSome_iff_exists.mp (Row.isSome_get? hname)
  rw [joinedValue, hv, Option.getD_some]

/-- A column over a new join that reads one field has a row for every joined pair. -/
theorem upcoming_project_join (hl : Unclosed left) (hr : Unclosed right)
    (hb : ∀ b ∈ right.plan.rows catalog, b.Carries right.schema) (out : String) :
    upcoming catalog ⟨.project [⟨out, f.type, .field f.name⟩] (join catalog left right).plan,
        .project (join catalog left right).state false⟩ =
      ((left.plan.rows catalog).product (right.plan.rows catalog)).map fun p =>
        Row.ofList [(out, joinedValue right f p)] := by
  have hj : (join catalog left right).upcoming catalog =
      ((left.plan.rows catalog).product (right.plan.rows catalog)).map fun p => p.1.merge p.2 :=
    (hl.isOpen.upcoming_join catalog hr.isOpen).trans
      (rows_join_eq_map_product catalog left.plan right.plan)
  show ((join catalog left right).upcoming catalog).map (Row.project _) = _
  rw [hj, List.map_map]
  refine List.map_congr_left fun p hp => ?_
  show Row.ofList [(out, ((p.1.merge p.2).get? f.name).getD .null)] = _
  rw [Row.get?_merge_of_carries (hb p.2 (List.pair_mem_product.mp hp).2)]
  rfl

/-- **A field of the left side.** A name whose first match over a join is a field of the left side can
be projected. The column has the type of that field, and for every joined pair, in their order, it has
the left row's value of the field, so a value like the type announces if the left rows have such
values. Where the right side has a field of exactly the same name, it has the right row's value. -/
theorem projected_values_of_left_field (hl : Unclosed left) (hr : Unclosed right)
    (ha : ∀ a ∈ left.plan.rows catalog, a.Carries left.schema)
    (hb : ∀ b ∈ right.plan.rows catalog, b.Carries right.schema)
    (hf : left.schema.resolve? x = some f) (out : String) :
    let pairs := (left.plan.rows catalog).product (right.plan.rows catalog)
    (join catalog left right).schema.resolve? x = some f ∧
    ∃ (d : Cursor) (value : Row × Row → Value),
      (join catalog left right).project [(out, .field x)] = .ok d ∧ d.schema = [⟨out, f.type⟩] ∧
      (d.drain catalog).1 = pairs.map (fun p => Row.ofList [(out, value p)]) ∧
      (∀ k, d.nth catalog k = (pairs.map fun p => Row.ofList [(out, value p)])[k]?) ∧
      (∀ p ∈ pairs, f.name ∉ right.schema.names → p.1.get? f.name = some (value p)) ∧
      (∀ p ∈ pairs, f.name ∈ right.schema.names → p.2.get? f.name = some (value p)) ∧
      ((∀ a ∈ left.plan.rows catalog, ∀ v ∈ a.get? f.name, f.type.announces v) →
        ∀ p ∈ pairs, f.name ∉ right.schema.names → f.type.announces (value p)) := by
  intro pairs
  have hj : (join catalog left right).schema.resolve? x = some f :=
    Schema.resolve?_append_of_eq_some hf right.schema
  have hrows := upcoming_project_join (f := f) hl hr hb out
  have hleft : ∀ p ∈ pairs, f.name ∉ right.schema.names →
      p.1.get? f.name = some (joinedValue right f p) := by
    intro p hp hn
    have h := get?_readFrom ha hb hf hp
    rwa [readFrom, if_neg hn] at h
  have hright : ∀ p ∈ pairs, f.name ∈ right.schema.names →
      p.2.get? f.name = some (joinedValue right f p) := by
    intro p hp hn
    have h := get?_readFrom ha hb hf hp
    rwa [readFrom, if_pos hn] at h
  refine ⟨hj, _, joinedValue right f, project_field hj out, rfl, ?_, fun k => ?_, hleft, hright, ?_⟩
  · exact (drain_eq catalog _).1.trans hrows
  · exact (nth_eq catalog _ k).trans (congrArg (·[k]?) hrows)
  · intro hkind p hp hn
    exact hkind p.1 (List.pair_mem_product.mp hp).1 _ (hleft p hp hn)

/-- A name that is spelled like a field of the right side, but means one of the left side. -/
theorem projected_values_of_left_field_of_case :
    let left : Cursor := ofPlan {} (.list 0 [⟨"x", .integer⟩] [Row.ofList [("x", .integer 1)]])
    let right : Cursor := ofPlan {} (.list 1 [⟨"X", .text⟩]
      [Row.ofList [("X", .text "b")], Row.ofList [("X", .text "c")]])
    let row := Row.ofList [("out", .integer 1)]
    ∃ d, (join {} left right).project [("out", .field "X")] = .ok d ∧
      d.schema = [⟨"out", .integer⟩] ∧ (d.drain {}).1 = [row, row] := by
  intro left right row
  have hl : Unclosed left := .opened {} trivial
  have hr : Unclosed right := .opened {} trivial
  have ha : ∀ a ∈ left.plan.rows {}, a.Carries left.schema :=
    List.forall_mem_singleton.mpr (Row.Fits.carries rfl)
  have hb : ∀ b ∈ right.plan.rows {}, b.Carries right.schema :=
    List.forall_mem_cons.mpr ⟨Row.Fits.carries rfl,
      List.forall_mem_singleton.mpr (Row.Fits.carries rfl)⟩
  have hf : left.schema.resolve? "X" = some ⟨"x", .integer⟩ := by decide
  obtain ⟨-, d, value, hd, hs, hdrain, -, hleft, -⟩ :=
    projected_values_of_left_field hl hr ha hb hf "out"
  have hname : "x" ∉ right.schema.names := by decide
  have h1 := hleft (Row.ofList [("x", .integer 1)], Row.ofList [("X", .text "b")]) (by decide) hname
  have h2 := hleft (Row.ofList [("x", .integer 1)], Row.ofList [("X", .text "c")]) (by decide) hname
  refine ⟨d, hd, hs, hdrain.trans ?_⟩
  show [Row.ofList [("out", value _)], Row.ofList [("out", value _)]] = _
  rw [← Option.some.inj h1, ← Option.some.inj h2]

/-- A field of the right side with exactly the same name hides the left one: the column has the type
of the left field and a text from the right row. -/
theorem right_field_hides_left_field :
    let left : Cursor := ofPlan {} (.list 0 [⟨"x", .integer⟩] [Row.ofList [("x", .integer 1)]])
    let right : Cursor := ofPlan {} (.list 1 [⟨"x", .text⟩] [Row.ofList [("x", .text "b")]])
    (∀ a ∈ left.plan.rows {}, a.Carries left.schema) ∧
      (∀ b ∈ right.plan.rows {}, b.Carries right.schema) ∧
      (join {} left right).schema.resolve? "x" = some ⟨"x", .integer⟩ ∧
      left.schema.resolve? "x" = some ⟨"x", .integer⟩ ∧
      ∃ d, (join {} left right).project [("out", .field "x")] = .ok d ∧
        d.schema = [⟨"out", .integer⟩] ∧ (d.drain {}).1 = [Row.ofList [("out", .text "b")]] ∧
        (d.drain {}).1 ≠ [Row.ofList [("out", .integer 1)]] ∧
        DataType.announces .integer (.text "b") = false := by
  intro left right
  have hj : (join {} left right).schema.resolve? "x" = some ⟨"x", .integer⟩ := by decide
  refine ⟨List.forall_mem_singleton.mpr (Row.Fits.carries rfl),
    List.forall_mem_singleton.mpr (Row.Fits.carries rfl), hj, by decide, _, project_field hj "out", ?_⟩
  exact ⟨rfl, by decide, by decide, rfl⟩

end LeftField

end Cursor

end PullSql
