import PullSql.Proofs.Query.Answer
import PullSql.Proofs.Sql.Placeholders

/-!
# Warnings of a statement

Planning warns of the placeholders that it comes by, once each and in their order: of all of them where
it succeeds, and of those up to its error where it fails.

1. The warnings of an expression are an initial part of its placeholders, and all of them if the
   expression compiles (`Column.warnings_isPrefix`, `Column.warnings_of_compileExpr`). The same holds
   of several expressions.
2. The targets of a query have the placeholders of its items (`Query.flatMap_parameters_targets`), so it
   holds of statements (`Catalog.warnings_isPrefix`, `Catalog.warnings_of_plan`), and of a text that is
   answered with rows (`Database.warnings_of_collect`).
-/

namespace PullSql

open Sql (Expr Select SelectItem Source Statement)
open Sql.Printing (parameters)

/-! ## Expressions -/

namespace Column

variable {schema : Schema}

theorem warnings_of_compileExpr {e : Expr} {c : DataType × Evaluator}
    (h : compileExpr schema e = .ok c) : warnings schema e = (parameters e).map .placeholder := by
  induction e generalizing c with
  | number | text | field | parameter => rfl
  | negate operand ih =>
    obtain ⟨a, ha, -⟩ := compileExpr_negate.mp h
    exact ih ha
  | binary op left right ihl ihr =>
    obtain ⟨a, b, ha, hb, -⟩ := compileExpr_binary.mp h
    rw [warnings, ha, ihl ha, ihr hb, parameters, List.map_append]

theorem warnings_isPrefix (schema : Schema) (e : Expr) :
    warnings schema e <+: (parameters e).map .placeholder := by
  induction e with
  | number | text | field | parameter => exact List.prefix_rfl
  | negate operand ih => exact ih
  | binary op left right ihl ihr =>
    rw [warnings, parameters, List.map_append]
    rcases h : compileExpr schema left with e | c
    · exact ihl.trans (List.prefix_append _ _)
    · rw [warnings_of_compileExpr h]
      exact (List.prefix_append_right_inj _).mpr ihr

theorem warningsAll_of_compileAll {targets : List Target} {columns : List Column}
    (h : compileAll schema targets = .ok columns) :
    warningsAll schema targets = (targets.flatMap fun t => parameters t.2).map .placeholder := by
  induction mapM_eq_ok_iff.mp h with
  | nil => rfl
  | @cons t column ts _ ht hs ih =>
    have hw := warnings_of_compileExpr (compile_eq_ok.mp ht).2
    have hmore := ih (mapM_eq_ok_iff.mpr hs)
    have ht : compile schema t.1 t.2 = .ok column := ht
    rw [warningsAll, ht, List.flatMap_cons, List.map_append, hw, hmore]

theorem warningsAll_isPrefix (schema : Schema) (targets : List Target) :
    warningsAll schema targets <+: (targets.flatMap fun t => parameters t.2).map .placeholder := by
  induction targets with
  | nil => exact List.prefix_rfl
  | cons t ts ih =>
    rw [warningsAll, List.flatMap_cons, List.map_append]
    rcases h : compile schema t.1 t.2 with e | column
    · exact (warnings_isPrefix schema t.2).trans (List.prefix_append _ _)
    · rw [warnings_of_compileExpr (compile_eq_ok.mp h).2]
      exact (List.prefix_append_right_inj _).mpr ih

end Column

/-! ## Statements -/

namespace Query

theorem flatMap_parameters_itemTargets (stem : String) (refs : List String)
    (item : SelectItem × Nat) :
    ((itemTargets stem refs item).flatMap fun t => parameters t.2) = item.1.placeholders := by
  rcases item with ⟨_ | reference | ⟨e, name?⟩, index⟩
  · simp [itemTargets, Target.ofField, parameters, SelectItem.placeholders]
  · rfl
  · cases name? with
    | some name => simp [itemTargets, SelectItem.placeholders]
    | none => cases e <;> simp [itemTargets, SelectItem.placeholders]

theorem flatMap_parameters_targets (stem : String) (refs : List String) (items : List SelectItem) :
    ((targets stem refs items).flatMap fun t => parameters t.2) =
      items.flatMap SelectItem.placeholders := by
  rw [targets, List.flatMap_assoc]
  simp only [flatMap_parameters_itemTargets]
  conv_rhs => rw [← List.zipIdx_map_fst 0 items, List.flatMap_map]

end Query

namespace Catalog

variable {catalog : Catalog} {settings : Settings}

theorem selectWarnings_isPrefix (catalog : Catalog) (settings : Settings) (query : Select) :
    catalog.selectWarnings settings query <+:
      (query.items.flatMap SelectItem.placeholders).map .placeholder := by
  unfold Catalog.selectWarnings
  rcases h : catalog.selectTargets settings query with e | ⟨source, ts⟩
  · exact List.nil_prefix
  · obtain ⟨-, rfl⟩ := Query.selectTargets_eq_ok h
    rw [← Query.flatMap_parameters_targets]
    exact Column.warningsAll_isPrefix _ _

theorem selectWarnings_of_planSelect {query : Select} {p : Plan}
    (h : catalog.planSelect settings query = .ok p) :
    catalog.selectWarnings settings query =
      (query.items.flatMap SelectItem.placeholders).map .placeholder := by
  obtain ⟨⟨source, ts⟩, ht, h⟩ := bind_eq_ok_iff.mp h
  obtain ⟨columns, hc, -⟩ := bind_eq_ok_iff.mp h
  rw [Catalog.selectWarnings, ht, ← Query.flatMap_parameters_targets,
    ← (Query.selectTargets_eq_ok ht).2]
  exact Column.warningsAll_of_compileAll hc

/-- Planning warns of placeholders from the first one on. -/
theorem warnings_isPrefix (catalog : Catalog) (settings : Settings) (s : Statement) :
    catalog.warnings settings s <+: s.placeholders.map .placeholder := by
  cases s with
  | select query => exact selectWarnings_isPrefix catalog settings query
  | showTables => exact selectWarnings_isPrefix catalog settings (Select.everything catalog.ownName)
  | createTable | insert => exact List.nil_prefix

/-- A statement with a plan has one warning for each placeholder. -/
theorem warnings_of_plan {s : Statement} {p : Plan} (h : catalog.plan settings s = .ok p) :
    catalog.warnings settings s = s.placeholders.map .placeholder := by
  cases s with
  | select query => exact selectWarnings_of_planSelect h
  | showTables => exact selectWarnings_of_planSelect h
  | createTable | insert => cases h

end Catalog

/-! ## Texts -/

namespace Database

variable {db : Database} {sql : String}

theorem warnings_of_ofText {s : Statement} (h : Statement.ofText sql = .ok s) :
    db.warnings sql = db.catalog.warnings db.settings s := by
  rw [Database.warnings, h]

/-- A text whose rows can be collected has one warning for each placeholder. -/
theorem warnings_of_collect {r : Result} (h : db.collect sql = .ok r) :
    ∃ s, Statement.ofText sql = .ok s ∧ db.warnings sql = s.placeholders.map .placeholder := by
  obtain ⟨cursor, hcursor, -⟩ := bind_eq_ok_iff.mp h
  obtain ⟨s, hs, hexecute⟩ := bind_eq_ok_iff.mp hcursor
  obtain ⟨p, hp, -⟩ := bind_eq_ok_iff.mp hexecute
  exact ⟨s, hs, (warnings_of_ofText hs).trans (Catalog.warnings_of_plan hp)⟩

end Database

end PullSql
