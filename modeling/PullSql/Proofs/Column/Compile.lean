import Mathlib.Data.List.Forall2
import PullSql.Column

/-!
# Compiled expressions

When an expression compiles, and what its evaluator does then.

1. `compileExpr_field`, `compileExpr_negate` and `compileExpr_binary` say exactly what it takes to
   compile a node.
2. An evaluator reads fields of its schema only (`fieldNames_subset`).
3. It gives what the expression itself gives when each name is read as the field that it means
   (`evaluate_eq_value`).
-/

namespace PullSql

open Sql (BinaryOp Expr)

theorem bind_eq_ok_iff {α β ε : Type} {x : Except ε α} {f : α → Except ε β} {b : β} :
    (x >>= f) = .ok b ↔ ∃ a, x = .ok a ∧ f a = .ok b := by
  rcases x with e | a <;> simp [bind, Except.bind]

/-- A traversal that may fail succeeds when every element does. -/
theorem mapM_eq_ok_iff {α β ε : Type} {f : α → Except ε β} {as : List α} {bs : List β} :
    as.mapM f = .ok bs ↔ List.Forall₂ (fun a b => f a = .ok b) as bs := by
  induction as generalizing bs with
  | nil =>
    rw [List.mapM_nil, List.forall₂_nil_left_iff]
    exact ⟨fun h => (Except.ok.inj h).symm, fun h => h ▸ rfl⟩
  | cons a as ih =>
    rw [List.mapM_cons, bind_eq_ok_iff]
    constructor
    · rintro ⟨b, ha, h⟩
      obtain ⟨cs, hs, h⟩ := bind_eq_ok_iff.mp h
      cases h
      exact .cons ha (ih.mp hs)
    · rintro (_ | ⟨ha, hs⟩)
      exact ⟨_, ha, bind_eq_ok_iff.mpr ⟨_, ih.mpr hs, rfl⟩⟩

/-- A traversal whose steps can only give `g` is a map. -/
theorem eq_map_of_mapM_eq_ok {α β ε : Type} {f : α → Except ε β} {g : α → β} {as : List α}
    {bs : List β} (hg : ∀ a b, f a = .ok b → b = g a) (h : as.mapM f = .ok bs) : bs = as.map g := by
  induction mapM_eq_ok_iff.mp h with
  | nil => rfl
  | cons ha hs ih => rw [hg _ _ ha, ih (mapM_eq_ok_iff.mpr hs), List.map_cons]

/-- The names that an evaluator reads from its row. -/
def Evaluator.fieldNames : Evaluator → List String
  | constant _ => []
  | field name => [name]
  | negate operand => operand.fieldNames
  | binary _ left right => left.fieldNames ++ right.fieldNames

/-- The names in an expression, as they are written. -/
def Sql.Expr.names : Expr → List String
  | number _ => []
  | text _ => []
  | field name => [name]
  | parameter _ => []
  | negate operand => operand.names
  | binary _ left right => left.names ++ right.names

/-- The value of an expression, names being read by `read`. An operation without a result is NULL, a
placeholder the integer 1. -/
def Sql.Expr.value (read : String → Value) : Expr → Value
  | number d => .double d
  | text s => .text s
  | field name => read name
  | parameter _ => .integer 1
  | negate operand => (operand.value read).neg?.getD .null
  | binary op left right => (Value.operate? op (left.value read) (right.value read)).getD .null

namespace Column

variable {schema : Schema} {c : DataType × Evaluator}

/-! ## What it takes to compile a node -/

theorem compileExpr_field {name : String} :
    compileExpr schema (.field name) = .ok c ↔
      ∃ f, schema.resolve? name = some f ∧ c = (f.type, .field f.name) := by
  rw [compileExpr]
  rcases schema.resolve? name with _ | f
  · simp
  · simp [eq_comm]

theorem compileExpr_negate {operand : Expr} :
    compileExpr schema (.negate operand) = .ok c ↔
      ∃ a, compileExpr schema operand = .ok a ∧ c = (.number, .negate a.2) := by
  rw [compileExpr, bind_eq_ok_iff]
  simp [pure, Except.pure, eq_comm]

theorem compileExpr_binary {op : BinaryOp} {left right : Expr} :
    compileExpr schema (.binary op left right) = .ok c ↔
      ∃ a b, compileExpr schema left = .ok a ∧ compileExpr schema right = .ok b ∧ op ≠ .pow ∧
        c = (.number, .binary op a.2 b.2) := by
  rw [compileExpr]
  simp only [bind_eq_ok_iff]
  by_cases h : op = .pow
  · simp [h, throw, throwThe, MonadExceptOf.throw]
  · simp [h, pure, Except.pure, eq_comm]

theorem compile_eq_ok {name : String} {e : Expr} {column : Column} :
    compile schema name e = .ok column ↔
      column.name = name ∧ compileExpr schema e = .ok (column.type, column.evaluator) := by
  obtain ⟨name', type, evaluator⟩ := column
  rw [compile, bind_eq_ok_iff]
  simp [pure, Except.pure, eq_comm, and_left_comm]

/-- Each column is that of the expression at its place. -/
theorem exists_target_of_getElem? {targets : List (String × Expr)} {columns : List Column}
    {column : Column} (h : compileAll schema targets = .ok columns) {i : Nat}
    (hc : columns[i]? = some column) :
    ∃ e, targets[i]? = some (column.name, e) ∧
      compileExpr schema e = .ok (column.type, column.evaluator) := by
  induction mapM_eq_ok_iff.mp h generalizing i with
  | nil => cases hc
  | @cons target first _ _ ht hs ih =>
    cases i with
    | zero =>
      cases hc
      obtain ⟨hname, he⟩ := compile_eq_ok.mp ht
      exact ⟨target.2, by rw [hname]; rfl, he⟩
    | succ i => exact ih (mapM_eq_ok_iff.mpr hs) hc

theorem exists_compileExpr_of_mem {targets : List (String × Expr)} {columns : List Column}
    {column : Column} (h : compileAll schema targets = .ok columns) (hc : column ∈ columns) :
    ∃ e, compileExpr schema e = .ok (column.type, column.evaluator) := by
  obtain ⟨i, hi⟩ := List.mem_iff_getElem?.mp hc
  obtain ⟨e, -, he⟩ := exists_target_of_getElem? h hi
  exact ⟨e, he⟩

/-- The columns have the names that they were asked for. -/
theorem names_map_field {targets : List (String × Expr)} {columns : List Column}
    (h : compileAll schema targets = .ok columns) :
    Schema.names (columns.map (·.field)) = targets.map (·.1) := by
  induction mapM_eq_ok_iff.mp h with
  | nil => rfl
  | @cons target column _ _ ht hs ih =>
    have hname : column.field.name = target.1 := (compile_eq_ok.mp ht).1
    rw [List.map_cons, List.map_cons, Schema.names, List.map_cons, hname]
    exact congrArg _ (ih (mapM_eq_ok_iff.mpr hs))

/-! ## What a compiled expression does -/

theorem mem_names_of_resolve? {name : String} {f : Field} (h : schema.resolve? name = some f) :
    f.name ∈ schema.names :=
  List.mem_map_of_mem (List.mem_of_find?_eq_some h)

theorem fieldNames_subset {e : Expr} (h : compileExpr schema e = .ok c) :
    c.2.fieldNames ⊆ schema.names := by
  induction e generalizing c with
  | number d | text s | parameter n =>
    cases h
    exact List.nil_subset _
  | field name =>
    obtain ⟨f, hf, rfl⟩ := compileExpr_field.mp h
    exact List.cons_subset.mpr ⟨mem_names_of_resolve? hf, List.nil_subset _⟩
  | negate operand ih =>
    obtain ⟨a, ha, rfl⟩ := compileExpr_negate.mp h
    show a.2.fieldNames ⊆ schema.names
    exact ih ha
  | binary op left right ihl ihr =>
    obtain ⟨a, b, ha, hb, -, rfl⟩ := compileExpr_binary.mp h
    exact List.append_subset.mpr ⟨ihl ha, ihr hb⟩

/-- Every name of an expression that compiles is a field. -/
theorem isSome_resolve?_of_mem_names {e : Expr} (h : compileExpr schema e = .ok c) {x : String}
    (hx : x ∈ e.names) : (schema.resolve? x).isSome := by
  induction e generalizing c with
  | number d | text s | parameter n => exact absurd hx List.not_mem_nil
  | field name =>
    obtain ⟨f, hf, -⟩ := compileExpr_field.mp h
    rw [List.mem_singleton.mp hx, hf, Option.isSome_some]
  | negate operand ih =>
    obtain ⟨a, ha, -⟩ := compileExpr_negate.mp h
    exact ih ha hx
  | binary op left right ihl ihr =>
    obtain ⟨a, b, ha, hb, -⟩ := compileExpr_binary.mp h
    rcases List.mem_append.mp hx with hx | hx
    · exact ihl ha hx
    · exact ihr hb hx

/-- What a row holds under the field that a name means. -/
def readField (schema : Schema) (r : Row) (name : String) : Value :=
  ((schema.resolve? name).bind fun f => r.get? f.name).getD .null

theorem evaluate_eq_value {e : Expr} (h : compileExpr schema e = .ok c) (r : Row) :
    c.2.evaluate r = e.value (readField schema r) := by
  induction e generalizing c with
  | number d | text s | parameter n =>
    cases h
    rfl
  | field name =>
    obtain ⟨f, hf, rfl⟩ := compileExpr_field.mp h
    simp [Evaluator.evaluate, Expr.value, readField, hf]
  | negate operand ih =>
    obtain ⟨a, ha, rfl⟩ := compileExpr_negate.mp h
    rw [Evaluator.evaluate, Expr.value, ih ha]
  | binary op left right ihl ihr =>
    obtain ⟨a, b, ha, hb, -, rfl⟩ := compileExpr_binary.mp h
    rw [Evaluator.evaluate, Expr.value, ihl ha, ihr hb]

end Column

end PullSql
