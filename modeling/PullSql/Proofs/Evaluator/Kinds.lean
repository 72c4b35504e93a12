import Mathlib.Tactic.Tauto
import PullSql.Proofs.Value.Arithmetic

/-!
# Kinds of results

The leaves of an evaluator, the values that go in, decide what kind of value comes out. Numbers give a
number, texts under nothing but sums give the text of all of them, and every other mixture gives NULL,
since an operation without a result gives NULL and no operation makes anything else of a NULL.

Main statement: `evaluate_kind_of_leaves`.
-/

namespace PullSql

open Sql (BinaryOp)

/-- What an inner node of an evaluator does to its operands. -/
inductive Operation where
  | negation
  | binary (op : BinaryOp)
  deriving DecidableEq, Repr

namespace Evaluator

/-- The values that go in, from left to right: constants, and what the fields hold. -/
def leaves (row : Row) : Evaluator → List Value
  | constant value => [value]
  | field name => [(row.get? name).getD .null]
  | negate operand => operand.leaves row
  | binary _ left right => left.leaves row ++ right.leaves row

/-- What the inner nodes do, operands before their operator. -/
def operations : Evaluator → List Operation
  | constant _ => []
  | field _ => []
  | negate operand => operand.operations ++ [.negation]
  | binary op left right => left.operations ++ right.operations ++ [.binary op]

/-- Every leaf is a number and no inner node is a power. -/
def IsNumeric (row : Row) (e : Evaluator) : Prop :=
  (∀ v ∈ e.leaves row, v.isNumber) ∧ .binary .pow ∉ e.operations

/-- Every leaf is a text and every inner node is a sum. -/
def IsTextual (row : Row) (e : Evaluator) : Prop :=
  (∀ v ∈ e.leaves row, v.isText) ∧ ∀ o ∈ e.operations, o = .binary .add

/-- The texts of the leaves, one behind the other. -/
def joined (row : Row) (e : Evaluator) : String := String.join ((e.leaves row).map Value.display)

variable {row : Row}

/-! ## Numbers -/

theorem isNumeric_negate {operand : Evaluator} :
    (negate operand).IsNumeric row ↔ operand.IsNumeric row := by
  simp [IsNumeric, leaves, operations]

theorem isNumeric_binary {op : BinaryOp} {left right : Evaluator} :
    (binary op left right).IsNumeric row ↔
      left.IsNumeric row ∧ right.IsNumeric row ∧ op ≠ .pow := by
  have hop : Operation.binary .pow = .binary op ↔ op = .pow := by
    rw [Operation.binary.injEq, eq_comm]
  rw [IsNumeric, IsNumeric, IsNumeric, leaves, operations, List.forall_mem_append, List.mem_append,
    List.mem_append, List.mem_singleton, hop]
  tauto

theorem isNumber_evaluate_iff (e : Evaluator) : (e.evaluate row).isNumber ↔ e.IsNumeric row := by
  induction e with
  | constant value => simp [IsNumeric, evaluate, leaves, operations]
  | field name => simp [IsNumeric, evaluate, leaves, operations]
  | negate operand ih => rw [evaluate, Value.isNumber_neg, ih, isNumeric_negate]
  | binary op left right ihl ihr =>
    rw [evaluate, (Value.operates _ _ _).isNumber_iff, ihl, ihr, isNumeric_binary]

/-! ## Texts -/

theorem not_isTextual_negate {operand : Evaluator} : ¬ (negate operand).IsTextual row := by
  rintro ⟨-, h⟩
  have hn := h .negation (by simp [operations])
  cases hn

theorem isTextual_binary {op : BinaryOp} {left right : Evaluator} :
    (binary op left right).IsTextual row ↔
      op = .add ∧ left.IsTextual row ∧ right.IsTextual row := by
  rw [IsTextual, IsTextual, IsTextual, leaves, operations, List.forall_mem_append,
    List.forall_mem_append, List.forall_mem_append, List.forall_mem_singleton,
    Operation.binary.injEq]
  tauto

theorem joined_binary (op : BinaryOp) (left right : Evaluator) :
    (binary op left right).joined row = left.joined row ++ right.joined row := by
  rw [joined, leaves, List.map_append, String.join_append, joined, joined]

/-- A leaf is its own text. -/
theorem eq_text_iff_of_leaf {v : Value} {s : String} :
    v = .text s ↔ v.isText ∧ s = String.join [v.display] := by
  cases v <;> simp [Value.isText, Value.display, String.join, eq_comm]

theorem evaluate_eq_text_iff {e : Evaluator} {s : String} :
    e.evaluate row = .text s ↔ e.IsTextual row ∧ s = e.joined row := by
  induction e generalizing s with
  | constant value => simp [IsTextual, joined, evaluate, leaves, operations, eq_text_iff_of_leaf]
  | field name => simp [IsTextual, joined, evaluate, leaves, operations, eq_text_iff_of_leaf]
  | negate operand ih =>
    exact iff_of_false (Value.neg_ne_text s) fun h => not_isTextual_negate h.1
  | binary op left right ihl ihr =>
    rw [evaluate, (Value.operates _ _ _).eq_text_iff, isTextual_binary, joined_binary]
    simp only [ihl, ihr]
    constructor
    · rintro ⟨hop, t, u, ⟨hl, rfl⟩, ⟨hr, rfl⟩, rfl⟩
      exact ⟨⟨hop, hl, hr⟩, rfl⟩
    · rintro ⟨⟨hop, hl, hr⟩, rfl⟩
      exact ⟨hop, _, _, ⟨hl, rfl⟩, ⟨hr, rfl⟩, rfl⟩

/-! ## All kinds -/

/-- **The leaves decide the kind.** The result is an integer or a double exactly if every leaf is a
number and no inner node is a power. It is a text exactly if every leaf is a text and every inner node
is a sum, and is then the texts of the leaves from left to right, however the sums are nested. In every
other case it is NULL, and in no other. -/
theorem evaluate_kind_of_leaves (row : Row) (e : Evaluator) :
    ((e.evaluate row).isNumber ↔ e.IsNumeric row) ∧
    (∀ s, e.evaluate row = .text s ↔ e.IsTextual row ∧ s = e.joined row) ∧
    (e.evaluate row = .null ↔ ¬ e.IsNumeric row ∧ ¬ e.IsTextual row) := by
  refine ⟨isNumber_evaluate_iff e, fun _ => evaluate_eq_text_iff, ?_⟩
  rw [Value.eq_null_iff, isNumber_evaluate_iff]
  simp only [evaluate_eq_text_iff, exists_and_left, exists_eq, and_true]

end Evaluator

end PullSql
