import PullSql.Proofs.Evaluator.Kinds

/-!
# Integer results are exact

An operation gives an integer for integers only, and only the exact one. So an integer comes out if the
values that go in are integers, no node is a quotient or a power, and the exact result of every
subexpression fits into 64 bits. A result that does not fit is a double, and doubles stay doubles.

Main statement: `evaluate_eq_integer_iff_exact`.
-/

namespace PullSql

open Sql (BinaryOp)

/-- The number that an integer is. Other values count as zero. -/
def Value.whole : Value → Int
  | integer n => n.toInt
  | _ => 0

namespace Evaluator

/-- The result over the integers, of any size, of an evaluator with integers as its leaves. -/
def exactValue (row : Row) : Evaluator → Int
  | constant value => value.whole
  | field name => ((row.get? name).getD .null).whole
  | negate operand => -operand.exactValue row
  | binary op left right => op.exact (left.exactValue row) (right.exactValue row)

/-- An evaluator and all that stand in it. -/
def subtrees : Evaluator → List Evaluator
  | negate operand => negate operand :: operand.subtrees
  | binary op left right => binary op left right :: (left.subtrees ++ right.subtrees)
  | leaf => [leaf]

/-- A number fits into 64 bits. -/
def Fits64 (m : Int) : Prop := -2 ^ 63 ≤ m ∧ m < 2 ^ 63

/-- Every leaf is an integer, no node is a quotient or a power, and nothing leaves the 64 bits. -/
def IsExact (row : Row) (e : Evaluator) : Prop :=
  (∀ v ∈ e.leaves row, ∃ n, v = .integer n) ∧
    .binary .div ∉ e.operations ∧ .binary .pow ∉ e.operations ∧
    ∀ t ∈ e.subtrees, Fits64 (t.exactValue row)

variable {row : Row}

theorem fits64_iff {m : Int} : Fits64 m ↔ ∃ n : Int64, n.toInt = m := by
  constructor
  · exact fun h => Value.exists_toInt_eq h.1 h.2
  · rintro ⟨n, rfl⟩
    exact ⟨n.le_toInt, n.toInt_lt⟩

theorem mem_subtrees_self (e : Evaluator) : e ∈ e.subtrees := by
  cases e <;> simp [subtrees]

/-! ## Exactness, node by node -/

/-- A leaf is an integer if it is one that fits. -/
theorem eq_integer_iff_of_leaf {v : Value} {n : Int64} :
    v = .integer n ↔ ((∃ m, v = .integer m) ∧ Fits64 v.whole) ∧ n.toInt = v.whole := by
  cases v with
  | null | double d | text s => simp
  | integer m =>
    have hm : Fits64 (Value.integer m).whole := fits64_iff.mpr ⟨m, rfl⟩
    rw [Value.integer.injEq, eq_comm, ← Int64.toInt_inj]
    exact (and_iff_right ⟨⟨m, rfl⟩, hm⟩).symm

theorem isExact_negate {operand : Evaluator} :
    (negate operand).IsExact row ↔ operand.IsExact row ∧ Fits64 (-operand.exactValue row) := by
  simp only [IsExact, leaves, operations, subtrees, exactValue, List.forall_mem_cons, List.mem_append,
    List.mem_singleton, reduceCtorEq, or_false]
  tauto

theorem isExact_binary {op : BinaryOp} {left right : Evaluator} :
    (binary op left right).IsExact row ↔ left.IsExact row ∧ right.IsExact row ∧
      op ≠ .div ∧ op ≠ .pow ∧ Fits64 (op.exact (left.exactValue row) (right.exactValue row)) := by
  have hop : ∀ p, Operation.binary p ∈ (binary op left right).operations ↔
      .binary p ∈ left.operations ∨ .binary p ∈ right.operations ∨ op = p := by
    intro p
    rw [operations, List.mem_append, List.mem_append, List.mem_singleton, Operation.binary.injEq,
      or_assoc, eq_comm]
  have hvalue : (binary op left right).exactValue row =
      op.exact (left.exactValue row) (right.exactValue row) := rfl
  rw [IsExact, IsExact, IsExact, hop, hop, leaves, subtrees, List.forall_mem_append,
    List.forall_mem_cons, List.forall_mem_append, hvalue]
  tauto

/-! ## Integer results -/

theorem evaluate_eq_integer_iff {e : Evaluator} {n : Int64} :
    e.evaluate row = .integer n ↔ e.IsExact row ∧ n.toInt = e.exactValue row := by
  induction e generalizing n with
  | constant value =>
    rw [evaluate, eq_integer_iff_of_leaf]
    simp [IsExact, leaves, operations, subtrees, exactValue]
  | field name =>
    rw [evaluate, eq_integer_iff_of_leaf]
    simp [IsExact, leaves, operations, subtrees, exactValue]
  | negate operand ih =>
    rw [evaluate, Value.neg_eq_integer_iff, isExact_negate, fits64_iff, exactValue]
    simp only [ih]
    constructor
    · rintro ⟨m, ⟨h, hm⟩, hn⟩
      rw [hm] at hn
      exact ⟨⟨h, n, hn⟩, hn⟩
    · rintro ⟨⟨h, -⟩, hn⟩
      obtain ⟨m, hm⟩ := fits64_iff.mp (h.2.2.2 operand (mem_subtrees_self operand))
      exact ⟨m, ⟨h, hm⟩, by rw [hm, hn]⟩
  | binary op left right ihl ihr =>
    rw [evaluate, (Value.operates _ _ _).eq_integer_iff, isExact_binary, fits64_iff, exactValue]
    simp only [Value.Exactly, ihl, ihr]
    constructor
    · rintro ⟨hd, hp, j, k, ⟨hl, hj⟩, ⟨hr, hk⟩, hn⟩
      rw [hj, hk] at hn
      exact ⟨⟨hl, hr, hd, hp, n, hn⟩, hn⟩
    · rintro ⟨⟨hl, hr, hd, hp, -⟩, hn⟩
      -- both operands fit, so they are 64-bit integers
      obtain ⟨j, hj⟩ := fits64_iff.mp (hl.2.2.2 left (mem_subtrees_self left))
      obtain ⟨k, hk⟩ := fits64_iff.mp (hr.2.2.2 right (mem_subtrees_self right))
      exact ⟨hd, hp, j, k, ⟨hl, hj⟩, ⟨hr, hk⟩, by rw [hj, hk, hn]⟩

theorem exists_evaluate_eq_integer_iff {e : Evaluator} :
    (∃ n, e.evaluate row = .integer n) ↔ e.IsExact row := by
  simp only [evaluate_eq_integer_iff, exists_and_left, and_iff_left_iff_imp]
  exact fun h => fits64_iff.mp (h.2.2.2 e (mem_subtrees_self e))

/-- **Integer results are exact.** The result is the integer `n` exactly if every leaf is an integer,
no node is a quotient or a power, the exact result of every subtree fits into 64 bits, and `n` is the
exact result. If the result is a number and one of these fails, it is a double. -/
theorem evaluate_eq_integer_iff_exact (row : Row) (e : Evaluator) :
    (∀ n, e.evaluate row = .integer n ↔ e.IsExact row ∧ n.toInt = e.exactValue row) ∧
    ((∃ d, e.evaluate row = .double d) ↔ e.IsNumeric row ∧ ¬ e.IsExact row) := by
  refine ⟨fun _ => evaluate_eq_integer_iff, ?_⟩
  rw [Value.exists_eq_double_iff, isNumber_evaluate_iff, exists_evaluate_eq_integer_iff]

end Evaluator

end PullSql
