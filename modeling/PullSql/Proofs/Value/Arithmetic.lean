import Mathlib
import PullSql.Evaluator

/-!
# Results of operations

What an operation can give, operand kinds and 64-bit range considered. Every evaluator is built from
these steps, so its results follow from the lemmas here.

1. Whole numbers stay whole where the exact result fits: `int64?_eq_some_iff`.
2. `Operates` lists the four outcomes of an operator and `operates` says that there are no others: two
   texts joined, an exact integer, a double, and no result.
3. A negation gives a number for a number and nothing else (`isNumber_neg`, `neg_eq_integer_iff`).
-/

namespace PullSql

open Sql (BinaryOp)

/-- The exact result of an operator on integers. Quotients and powers count as none, here zero. -/
def Sql.BinaryOp.exact : BinaryOp → Int → Int → Int
  | add, m, n => m + n
  | sub, m, n => m - n
  | mul, m, n => m * n
  | div, _, _ | pow, _, _ => 0

namespace Value

/-- Whether a value is an integer or a double. -/
def isNumber : Value → Bool
  | integer _ | double _ => true
  | _ => false

/-- Whether a value is a text. -/
def isText : Value → Bool
  | text _ => true
  | _ => false

@[simp] theorem isNumber_null : null.isNumber = false := rfl
@[simp] theorem isNumber_integer (n : Int64) : (integer n).isNumber = true := rfl
@[simp] theorem isNumber_double (d : Double) : (double d).isNumber = true := rfl
@[simp] theorem isNumber_text (s : String) : (text s).isNumber = false := rfl

theorem isText_iff {v : Value} : v.isText ↔ ∃ s, v = text s := by
  cases v <;> simp [isText]

/-- There are three kinds of values. -/
theorem eq_null_iff {v : Value} : v = null ↔ ¬ v.isNumber ∧ ¬ ∃ s, v = text s := by
  cases v <;> simp

theorem exists_eq_double_iff {v : Value} :
    (∃ d, v = double d) ↔ v.isNumber ∧ ¬ ∃ n, v = integer n := by
  cases v <;> simp

theorem int64?_eq_some_iff {m : Int} {n : Int64} : int64? m = some n ↔ n.toInt = m := by
  have hmin : Int64.minValue.toInt = -2 ^ 63 := Int64.toInt_minValue
  have hmax : Int64.maxValue.toInt = 2 ^ 63 - 1 := Int64.toInt_maxValue
  rw [int64?, hmin, hmax, Option.ite_none_right_eq_some, Option.some.injEq]
  constructor
  · rintro ⟨hm, rfl⟩
    exact Int64.toInt_ofInt_of_le hm.1 (by omega)
  · rintro rfl
    have hlow := n.le_toInt
    have hhigh := n.toInt_lt
    exact ⟨⟨hlow, by omega⟩, Int64.ofInt_toInt n⟩

/-- Every number of the 64-bit range is a 64-bit integer. -/
theorem exists_toInt_eq {m : Int} (hlow : -2 ^ 63 ≤ m) (hhigh : m < 2 ^ 63) :
    ∃ n : Int64, n.toInt = m :=
  ⟨Int64.ofInt m, Int64.toInt_ofInt_of_le hlow hhigh⟩

/-! ## Operators -/

/-- Both operands are integers, and the operator has the exact result `n` on them. -/
def Exactly (op : BinaryOp) (a b : Value) (n : Int64) : Prop :=
  op ≠ .div ∧ op ≠ .pow ∧
    ∃ j k, a = integer j ∧ b = integer k ∧ n.toInt = op.exact j.toInt k.toInt

/-- The outcomes of an operator, each with all that it takes. -/
inductive Operates (op : BinaryOp) (a b : Value) : Value → Prop
  | joined {s t : String} (hop : op = .add) (ha : a = text s) (hb : b = text t) :
      Operates op a b (text (s ++ t))
  | exact {n : Int64} (h : Exactly op a b n) : Operates op a b (integer n)
  | rounded (d : Double) (hop : op ≠ .pow) (ha : a.isNumber) (hb : b.isNumber)
      (h : ∀ n, ¬ Exactly op a b n) : Operates op a b (double d)
  | nothing (htexts : ¬ (op = .add ∧ a.isText ∧ b.isText))
      (hnumbers : ¬ (op ≠ .pow ∧ a.isNumber ∧ b.isNumber)) : Operates op a b null

section Operators

variable {op : BinaryOp} {a b v : Value} {n : Int64}

theorem exactly_integers {j k : Int64} (hd : op ≠ .div) (hp : op ≠ .pow) :
    Exactly op (integer j) (integer k) n ↔ n.toInt = op.exact j.toInt k.toInt := by
  constructor
  · rintro ⟨-, -, j', k', hj, hk, h⟩
    cases hj
    cases hk
    exact h
  · exact fun h => ⟨hd, hp, j, k, rfl, rfl, h⟩

theorem not_exactly_double_left (x : Double) : ¬ Exactly op (double x) b n := by
  rintro ⟨-, -, j, k, hj, -, -⟩
  cases hj

theorem not_exactly_double_right (y : Double) : ¬ Exactly op a (double y) n := by
  rintro ⟨-, -, j, k, -, hk, -⟩
  cases hk

theorem operates_combine? (rounded : Double → Double → Double) (hd : op ≠ .div) (hp : op ≠ .pow)
    (htexts : ¬ (op = .add ∧ a.isText ∧ b.isText)) :
    Operates op a b ((combine? op.exact rounded a b).getD null) := by
  cases a with
  | null | text s => exact .nothing htexts (by simp)
  | integer j =>
    cases b with
    | null | text t => exact .nothing htexts (by simp)
    | integer k =>
      rcases h : int64? (op.exact j.toInt k.toInt) with _ | n
      · simp only [combine?, h]
        refine .rounded _ hp rfl rfl fun n hn => ?_
        rw [int64?_eq_some_iff.mpr ((exactly_integers hd hp).mp hn)] at h
        cases h
      · simp only [combine?, h]
        exact .exact ((exactly_integers hd hp).mpr (int64?_eq_some_iff.mp h))
    | double y => exact .rounded _ hp rfl rfl fun _ => not_exactly_double_right y
  | double x =>
    cases b with
    | null | text t => exact .nothing htexts (by simp)
    | integer k | double y => exact .rounded _ hp rfl rfl fun _ => not_exactly_double_left x

theorem operates_div : Operates .div a b ((a.div? b).getD null) := by
  cases a with
  | null | text s => exact .nothing (by simp) (by simp)
  | integer j | double x =>
    cases b with
    | null | text t => exact .nothing (by simp) (by simp)
    | integer k | double y => exact .rounded _ (by decide) rfl rfl fun _ h => h.1 rfl

theorem add?_eq_combine? (h : ¬ (a.isText ∧ b.isText)) :
    a.add? b = combine? (· + ·) (· + ·) a b := by
  unfold add?
  split
  · exact absurd ⟨rfl, rfl⟩ h
  · rfl

/-- The outcomes of an operator are all there are. -/
theorem operates (op : BinaryOp) (a b : Value) : Operates op a b ((operate? op a b).getD null) := by
  cases op with
  | add =>
    by_cases h : a.isText ∧ b.isText
    · obtain ⟨s, rfl⟩ := isText_iff.mp h.1
      obtain ⟨t, rfl⟩ := isText_iff.mp h.2
      exact .joined rfl rfl rfl
    · show Operates .add a b ((a.add? b).getD null)
      rw [add?_eq_combine? h]
      exact operates_combine? (· + ·) (by decide) (by decide) fun ht => h ht.2
  | sub => exact operates_combine? (· - ·) (by decide) (by decide) (by simp)
  | mul => exact operates_combine? (· * ·) (by decide) (by decide) (by simp)
  | div => exact operates_div
  | pow => exact .nothing (by simp) (by simp)

namespace Operates

theorem isNumber_iff (h : Operates op a b v) :
    v.isNumber ↔ a.isNumber ∧ b.isNumber ∧ op ≠ .pow := by
  cases h with
  | joined hop ha hb => simp [ha]
  | exact h =>
    obtain ⟨-, hp, j, k, rfl, rfl, -⟩ := h
    simp [hp]
  | rounded d hop ha hb h => simp [hop, ha, hb]
  | nothing htexts hnumbers =>
    rw [isNumber_null]
    exact iff_of_false (by simp) fun h => hnumbers ⟨h.2.2, h.1, h.2.1⟩

theorem eq_text_iff (h : Operates op a b v) {s : String} :
    v = text s ↔ op = .add ∧ ∃ t u, a = text t ∧ b = text u ∧ s = t ++ u := by
  cases h with
  | joined hop ha hb => simp [hop, ha, hb, eq_comm]
  | exact h =>
    obtain ⟨-, -, j, k, rfl, rfl, -⟩ := h
    simp
  | rounded d hop ha hb h =>
    refine iff_of_false (by simp) ?_
    rintro ⟨-, t, u, rfl, -⟩
    simp at ha
  | nothing htexts hnumbers =>
    refine iff_of_false (by simp) ?_
    rintro ⟨hop, t, u, rfl, rfl, -⟩
    exact htexts ⟨hop, rfl, rfl⟩

theorem eq_integer_iff (h : Operates op a b v) : v = integer n ↔ Exactly op a b n := by
  cases h with
  | joined hop ha hb =>
    refine iff_of_false (by simp) ?_
    rintro ⟨-, -, j, k, rfl, -⟩
    cases ha
  | @exact m h =>
    obtain ⟨hd, hp, j, k, rfl, rfl, hm⟩ := h
    rw [exactly_integers hd hp, ← hm, Int64.toInt_inj, integer.injEq, eq_comm]
  | rounded d hop ha hb h => exact iff_of_false (by simp) (h n)
  | nothing htexts hnumbers =>
    refine iff_of_false (by simp) ?_
    rintro ⟨-, hp, j, k, rfl, rfl, -⟩
    exact hnumbers ⟨hp, rfl, rfl⟩

end Operates

end Operators

/-! ## Negation -/

section Negation

variable {v : Value}

theorem isNumber_neg : (v.neg?.getD null).isNumber = v.isNumber := by
  cases v with
  | null | text s => rfl
  | double d => rfl
  | integer n =>
    simp only [neg?]
    split <;> rfl

theorem neg_ne_text (s : String) : v.neg?.getD null ≠ text s := by
  cases v with
  | null | text s => simp [neg?]
  | double d => simp [neg?]
  | integer n =>
    simp only [neg?]
    split <;> simp

theorem neg_eq_integer_iff {n : Int64} :
    v.neg?.getD null = integer n ↔ ∃ m, v = integer m ∧ n.toInt = -m.toInt := by
  cases v with
  | null | text s => simp [neg?]
  | double d => simp [neg?]
  | integer m =>
    rcases h : int64? (-m.toInt) with _ | k
    · have hn : n.toInt ≠ -m.toInt := fun hn => by
        rw [int64?_eq_some_iff.mpr hn] at h
        cases h
      simp [neg?, h, hn]
    · simp only [neg?, h, Option.getD_some, integer.injEq, exists_eq_left']
      rw [← int64?_eq_some_iff.mp h, Int64.toInt_inj, eq_comm]

end Negation

end Value

end PullSql
