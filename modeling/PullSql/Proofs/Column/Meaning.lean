import PullSql.Proofs.Column.Failures

/-!
# Columns mean their expressions

What a column says, in terms of the expression alone.

1. A name means the first field that it matches (`Schema.Means`).
2. The nodes of an expression are looked at in one order, operands before their operator and the left
   one first (`Expr.nodes`). An expression fails with the first fault of a node
   (`failure?_eq_findSome?`), and has none if all its names match a field and it holds no power
   (`failure?_eq_none_iff`).
3. A column has the type of its expression (`hasType_of_compileExpr`).

Main statement: `compile_fails_or_means`.
-/

namespace PullSql

open Sql (BinaryOp Expr)

/-! ## What names mean -/

/-- A name means the first field that it matches, letter case ignored. -/
def Schema.Means (schema : Schema) (name : String) (f : Field) : Prop :=
  Name.same f.name name ∧
    ∃ before after, schema = before ++ f :: after ∧ ∀ g ∈ before, ¬ Name.same g.name name

theorem Schema.means_iff {schema : Schema} {name : String} {f : Field} :
    schema.Means name f ↔ schema.resolve? name = some f := by
  rw [resolve?, List.find?_eq_some_iff_append]
  simp only [Means, Bool.not_eq_true, Bool.not_eq_true']

namespace Sql.Expr

/-! ## Nodes -/

/-- The nodes of an expression, operands before their operator and the left one first. -/
def nodes : Expr → List Expr
  | negate operand => operand.nodes ++ [negate operand]
  | binary op left right => left.nodes ++ right.nodes ++ [binary op left right]
  | leaf => [leaf]

/-- What is wrong with a node over fields of these names, its operands apart. -/
def fault? (fields : List String) : Expr → Option Error
  | field name => if fields.any (Name.same · name) then none else some (.unresolvedIdentifier name)
  | binary .pow _ _ => some (.unsupportedOperator .pow)
  | _ => none

/-- The operators between two operands in an expression. -/
def operators : Expr → List BinaryOp
  | negate operand => operand.operators
  | binary op left right => left.operators ++ right.operators ++ [op]
  | _ => []

variable {fields : List String}

theorem fault?_binary (op : BinaryOp) (left right : Expr) :
    (binary op left right).fault? fields =
      if op = .pow then some (.unsupportedOperator .pow) else none := by
  cases op <;> rfl

theorem failure?_eq_findSome? (e : Expr) :
    e.failure? fields = e.nodes.findSome? (fault? fields) := by
  induction e with
  | number d | text s | parameter n => rfl
  | field name =>
    show (field name).failure? fields = [field name].findSome? (fault? fields)
    rw [List.findSome?_singleton, failure?, fault?]
  | negate operand ih =>
    rw [nodes, List.findSome?_append, ← ih, List.findSome?_singleton]
    exact Option.or_none.symm
  | binary op left right ihl ihr =>
    rw [nodes, List.findSome?_append, List.findSome?_append, ← ihl, ← ihr,
      List.findSome?_singleton, fault?_binary, failure?]

theorem failure?_eq_none_iff (e : Expr) :
    e.failure? fields = none ↔
      (∀ x ∈ e.names, ∃ y ∈ fields, Name.same y x) ∧ .pow ∉ e.operators := by
  induction e with
  | number d | text s | parameter n => simp [failure?, names, operators]
  | field name => simp [failure?, names, operators]
  | negate operand ih => exact ih
  | binary op left right ihl ihr =>
    have hop : (if op = .pow then some (Error.unsupportedOperator .pow) else none) = none ↔
        .pow ≠ op := by
      rw [ite_eq_right_iff]
      simp [eq_comm]
    rw [failure?, Option.or_eq_none_iff, Option.or_eq_none_iff, ihl, ihr, hop, names, operators,
      List.forall_mem_append, List.mem_append, List.mem_append, List.mem_singleton]
    tauto

/-! ## Types -/

/-- The type of an expression over rows of a schema. Operators give numbers, whatever their operands
are. -/
inductive HasType (schema : Schema) : Expr → DataType → Prop
  | number (d : Double) : HasType schema (.number d) .double
  | text (s : String) : HasType schema (.text s) .string
  | parameter (n : Nat) : HasType schema (.parameter n) .integer
  | field {name : String} {f : Field} (h : schema.Means name f) :
      HasType schema (.field name) f.type
  | negate (operand : Expr) : HasType schema (.negate operand) .number
  | binary (op : BinaryOp) (left right : Expr) : HasType schema (.binary op left right) .number

end Sql.Expr

namespace Column

variable {schema : Schema}

theorem hasType_of_compileExpr {e : Expr} {c : DataType × Evaluator}
    (h : compileExpr schema e = .ok c) : e.HasType schema c.1 := by
  cases e with
  | number d =>
    cases h
    exact .number d
  | text s =>
    cases h
    exact .text s
  | parameter n =>
    cases h
    exact .parameter n
  | field name =>
    obtain ⟨f, hf, rfl⟩ := compileExpr_field.mp h
    exact .field (Schema.means_iff.mpr hf)
  | negate operand =>
    obtain ⟨a, -, rfl⟩ := compileExpr_negate.mp h
    exact .negate operand
  | binary op left right =>
    obtain ⟨a, b, -, -, -, rfl⟩ := compileExpr_binary.mp h
    exact .binary op left right

theorem readField_of_means {name : String} {f : Field} (h : schema.Means name f) (row : Row) :
    readField schema row name = (row.get? f.name).getD .null := by
  rw [readField, Schema.means_iff.mp h, Option.bind_some]

theorem error?_compile (name : String) (e : Expr) :
    error? (compile schema name e) = e.nodes.findSome? (Expr.fault? schema.names) := by
  rw [compile, error?_bind_of_ok fun _ => rfl, error?_compileExpr, Expr.failure?_eq_findSome?]

/-- **A column means its expression.** Compiling succeeds if every name matches a field, letter case
ignored, and there is no power, and then only; else it fails with the first fault among the nodes,
operands before their operator. The column has the type of the expression, and on every row the value
that the expression itself has when each name is read as what the row holds under exactly the name of
the first field that it matches. -/
theorem compile_fails_or_means (schema : Schema) (name : String) (e : Expr) :
    ((∃ c, compile schema name e = .ok c) ↔
      (∀ x ∈ e.names, ∃ y ∈ schema.names, Name.same y x) ∧ .pow ∉ e.operators) ∧
    (∀ err, compile schema name e = .error err ↔
      e.nodes.findSome? (Expr.fault? schema.names) = some err) ∧
    (∀ c, compile schema name e = .ok c → c.name = name ∧ e.HasType schema c.type ∧
      ∀ row, c.evaluator.evaluate row = e.value (readField schema row)) ∧
    ∀ x f, schema.Means x f → ∀ row, readField schema row x = (row.get? f.name).getD .null := by
  refine ⟨?_, fun err => ?_, fun c hc => ?_, fun x f h row => readField_of_means h row⟩
  · rw [← error?_eq_none_iff, error?_compile, ← Expr.failure?_eq_findSome?,
      Expr.failure?_eq_none_iff]
  · rw [← error?_eq_some_iff, error?_compile]
  · obtain ⟨hname, he⟩ := compile_eq_ok.mp hc
    exact ⟨hname, hasType_of_compileExpr he, evaluate_eq_value he⟩

/-- A sum over a schema in which two names differ in letter case only, and two expressions with two
faults each: the left operand fails first, and an operand before its operator. -/
theorem compile_fails_or_means_of_sum :
    let schema : Schema := [⟨"Name", .string⟩, ⟨"Age", .integer⟩, ⟨"AGE", .text⟩]
    let row := Row.ofList [("Name", .text "Hans"), ("AGE", .text "forty"), ("Age", .integer 40)]
    let sum : Expr := .binary .add (.field "AGE") (.negate (.parameter 0))
    let power : Expr := .binary .pow sum (.field "salary")
    (∃ c, compile schema "n" sum = .ok c ∧ c.name = "n" ∧ sum.HasType schema c.type ∧
      c.evaluator.evaluate row = .integer 39) ∧
    compile schema "n" power = .error (.unresolvedIdentifier "salary") ∧
    compile schema "n" (.binary .add (.binary .pow sum sum) (.field "salary")) =
      .error (.unsupportedOperator .pow) := by
  intro schema row sum power
  obtain ⟨hok, -, hmeans, hread⟩ := compile_fails_or_means schema "n" sum
  obtain ⟨c, hc⟩ := hok.mpr (by decide)
  obtain ⟨hname, htype, hvalue⟩ := hmeans c hc
  have hage : schema.Means "AGE" ⟨"Age", .integer⟩ := Schema.means_iff.mpr (by decide)
  refine ⟨⟨c, hc, hname, htype, ?_⟩, ?_, ?_⟩
  · rw [hvalue row]
    simp only [sum, Expr.value, hread "AGE" _ hage row]
    decide
  · exact ((compile_fails_or_means schema "n" power).2.1 _).mpr rfl
  · exact ((compile_fails_or_means schema "n" _).2.1 _).mpr rfl

end Column

end PullSql
