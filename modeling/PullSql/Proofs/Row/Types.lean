import PullSql.Proofs.Cursor.SharedNames
import PullSql.Proofs.Evaluator.Kinds

/-!
# Values of the announced types

A row is typed by a schema when each of its fields holds a value like its type announces; a NUMBER may
hold anything, since the operands of an operator may be anything. A row keeps one value under a name
and a schema lists the name as often as it likes, so what is written last has to suit all fields of
that name: where these agree on their type (`Schema.Consistent`), every way to make rows from rows
keeps rows typed.
-/

namespace PullSql

open Sql (BinaryOp Expr)

/-- Whether a field of the type may hold the value. -/
def DataType.Admits (type : DataType) (v : Value) : Prop := type = .number ∨ type.announces v

namespace DataType.Admits

variable {v : Value}

theorem integer (h : Admits .integer v) : ∃ n, v = .integer n := by
  cases v <;> simp_all [Admits, announces]

theorem double (h : Admits .double v) : ∃ d, v = .double d := by
  cases v <;> simp_all [Admits, announces]

theorem text {type : DataType} (ht : type = .text ∨ type = .string) (h : Admits type v) :
    ∃ s, v = .text s := by
  rcases ht with rfl | rfl <;> cases v <;> simp_all [Admits, announces]

end DataType.Admits

namespace Schema

/-- Fields of one name have one type. -/
def Consistent (s : Schema) : Prop := ∀ f ∈ s, ∀ g ∈ s, f.name = g.name → f.type = g.type

theorem consistent_of_nodup {s : Schema} (h : s.names.Nodup) : s.Consistent :=
  fun _ hf _ hg hn => congrArg Field.type (List.inj_on_of_nodup_map h hf hg hn)

theorem consistent_of_forall_type {s : Schema} {type : DataType} (h : ∀ f ∈ s, f.type = type) :
    s.Consistent :=
  fun f hf g hg _ => (h f hf).trans (h g hg).symm

end Schema

/-! ## Rows made from rows -/

namespace Row

/-- Each field holds a value that its type admits. -/
def Typed (r : Row) (s : Schema) : Prop := ∀ f ∈ s, ∀ v ∈ r.get? f.name, f.type.Admits v

variable {r : Row} {s : Schema}

theorem typed_single {value : Value} {type : DataType} (h : type.Admits value) :
    (single value).Typed [⟨Plan.valueField, type⟩] := by
  refine List.forall_mem_singleton.mpr fun v hv => ?_
  obtain rfl : value = v := by simpa [single, get?_insert] using hv
  exact h

theorem typed_ofName (name : String) : (ofName name).Typed Catalog.scanSchema := by
  refine List.forall_mem_singleton.mpr fun v hv => ?_
  obtain rfl : Value.text name = v := by simpa [get?_ofName] using hv
  exact .inr rfl

/-- What a field of a typed row holds suits every field of its name. -/
theorem Typed.admits (h : r.Typed s) {t : Schema} (hc : t.Consistent) {f g : Field} (hf : f ∈ t)
    (hg : g ∈ t) (hs : g ∈ s) (hn : f.name = g.name) {v : Value} (hv : r.get? g.name = some v) :
    f.type.Admits v := by
  rw [hc f hf g hg hn]
  exact h g hs v hv

theorem exists_field_of_get? (hn : r.Carries s) {x : String} {v : Value} (h : r.get? x = some v) :
    ∃ f ∈ s, f.name = x := by
  have hx : x ∈ r.names := by
    by_contra hx
    rw [get?_eq_none hx] at h
    cases h
  exact List.mem_map.mp ((hn x).mp hx)

theorem Typed.merge {a b : Row} {t : Schema} (ha : a.Typed s) (hb : b.Typed t) (hn : b.Carries t)
    (hc : (s ++ t).Consistent) : (a.merge b).Typed (s ++ t) := by
  intro f hf v hv
  rw [Option.mem_def, get?_merge_of_carries hn] at hv
  split at hv
  · -- the value is one of the right side, under a field of its own there
    rename_i hname
    obtain ⟨g, hg, hgf⟩ := List.mem_map.mp hname
    rw [← hgf] at hv
    exact hb.admits hc hf (List.mem_append_right s hg) hg hgf.symm hv
  · rename_i hname
    have hs : f ∈ s := (List.mem_append.mp hf).resolve_right fun ht =>
      hname (List.mem_map_of_mem ht)
    exact ha f hs v hv

theorem Typed.rename {qualifier : String} (h : r.Typed s) (hn : r.Carries s)
    (hc : (s ++ s.qualify qualifier).Consistent) :
    (r.rename qualifier).Typed (s ++ s.qualify qualifier) := by
  intro f hf v hv
  rcases mem_or_of_get?_insertAll hv with hv | hv
  · obtain ⟨⟨name, _⟩, hmem, heq⟩ := List.mem_map.mp hv
    obtain ⟨hname, rfl⟩ := Prod.mk.inj heq
    have hget := get?_of_mem hmem
    obtain ⟨g, hg, rfl⟩ := exists_field_of_get? hn hget
    -- the copy of `g` stands under the qualifier and has the type of `g`
    have hcopy : (⟨Name.qualified qualifier g.name, g.type⟩ : Field) ∈ s ++ s.qualify qualifier :=
      List.mem_append_right s (List.mem_map_of_mem hg)
    rw [hc f hf _ hcopy hname.symm]
    exact h g hg _ hget
  · obtain ⟨g, hg, hgf⟩ := exists_field_of_get? hn hv
    rw [← hgf] at hv
    exact h.admits hc hf (List.mem_append_left _ hg) hg hgf.symm hv

end Row

/-! ## Columns -/

namespace Column

variable {schema : Schema} {row : Row}

/-- A compiled expression over a typed row gives a value of its type. -/
theorem admits_evaluate {e : Expr} {c : DataType × Evaluator} (h : compileExpr schema e = .ok c)
    (ht : row.Typed schema) (hn : row.Carries schema) : c.1.Admits (c.2.evaluate row) := by
  cases e with
  | number d | text s | parameter n =>
    cases h
    exact .inr rfl
  | field name =>
    obtain ⟨f, hf, rfl⟩ := compileExpr_field.mp h
    have hname : f.name ∈ row.names := (hn f.name).mpr (mem_names_of_resolve? hf)
    obtain ⟨v, hv⟩ := Option.isSome_iff_exists.mp (Row.isSome_get? hname)
    rw [Evaluator.evaluate, hv, Option.getD_some]
    exact ht f (List.mem_of_find?_eq_some hf) v hv
  | negate operand =>
    obtain ⟨a, -, rfl⟩ := compileExpr_negate.mp h
    exact .inl rfl
  | binary op left right =>
    obtain ⟨a, b, -, -, -, rfl⟩ := compileExpr_binary.mp h
    exact .inl rfl

theorem typed_project {targets : List (String × Expr)} {columns : List Column}
    (h : compileAll schema targets = .ok columns) (ht : row.Typed schema) (hn : row.Carries schema)
    (hc : Schema.Consistent (columns.map (·.field))) :
    (row.project columns).Typed (columns.map (·.field)) := by
  intro f hf v hv
  rcases Row.mem_or_of_get?_insertAll hv with hv | hv
  · obtain ⟨column, hcolumn, heq⟩ := List.mem_map.mp hv
    obtain ⟨hname, rfl⟩ := Prod.mk.inj heq
    obtain ⟨e, he⟩ := exists_compileExpr_of_mem h hcolumn
    rw [hc f hf column.field (List.mem_map_of_mem hcolumn) hname.symm]
    exact admits_evaluate he ht hn
  · cases hv

end Column

/-! ## Texts in NUMBER columns -/

/-- Whether an expression is nothing but sums of names and text literals. -/
def Sql.Expr.isConcatenation : Expr → Bool
  | field _ | text _ => true
  | binary .add left right => left.isConcatenation && right.isConcatenation
  | _ => false

/-- Only these expressions have a text as their value, whatever their names stand for. -/
theorem Sql.Expr.isConcatenation_of_value_eq_text {e : Expr} {read : String → Value} {s : String}
    (h : e.value read = .text s) : e.isConcatenation := by
  induction e generalizing s with
  | number d | parameter n => cases h
  | text t | field name => rfl
  | negate operand _ => exact absurd h (Value.neg_ne_text s)
  | binary op left right ihl ihr =>
    obtain ⟨rfl, t, u, hl, hr, -⟩ := (Value.operates op _ _).eq_text_iff.mp h
    rw [isConcatenation, ihl hl, ihr hr, Bool.and_self]

end PullSql
