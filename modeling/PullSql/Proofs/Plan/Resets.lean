import PullSql.Proofs.Plan.Operators

/-!
# Resets of a join of lists

A join resets its left input when it is reset itself, and its right input then and once more for every
further left row. So the resets that a pass over a join of two lists has made are told by the left
position alone (`Pass.pairing`), up to the end of the pass, where an empty right side cuts it short
(`rightResets`). A fetch goes one step on in the pass (`Pass.fetch`) and a reset begins the next one
(`pass_reset`).
-/

namespace PullSql.Plan

/-- How often a pass over a join resets the right input, `m` and `n` being the numbers of left and right
rows. Two left rows are enough to see that there is no right one. -/
def rightResets (m n : Nat) : Nat := if m = 0 then 1 else if n = 0 then min m 2 else m

/-- How many fetches a join that was just reset takes until it holds no left row. -/
def passLength (m n : Nat) : Nat := if m = 0 then 0 else m * n + 1

/-- A pass takes one fetch more than there are pairs, except that a join without left rows has come to
its end already. -/
theorem lt_iff_passLength_le (m n k : Nat) : m * n < k ↔ 0 < k ∧ passLength m n ≤ k := by
  unfold passLength
  split
  · simp_all
  · omega

/-! ## Fetches from a list -/

section List

variable {catalog : Catalog} {tag : Nat} {schema : Schema} {rows : List Row} {position resets : Nat}
  {s : State (.list tag schema rows)}

theorem fetch_list_eq_some {row : Row}
    (h : fetch catalog (.list tag schema rows) (.list position resets 0) = (some row, s)) :
    rows[position]? = some row ∧ s = .list (position + 1) resets 0 := by
  rcases hr : rows[position]? with _ | row' <;> simp [fetch, hr] at h
  exact ⟨congrArg some h.1, h.2.symm⟩

theorem fetch_list_eq_none
    (h : fetch catalog (.list tag schema rows) (.list position resets 0) = (none, s)) :
    rows.length ≤ position ∧ s = .list position resets 0 := by
  rcases hr : rows[position]? with _ | row <;> simp [fetch, hr] at h
  exact ⟨List.getElem?_eq_none_iff.mp hr, h.symm⟩

end List

/-! ## Passes -/

section Pass

variable {leftTag rightTag : Nat} {leftSchema rightSchema : Schema} {leftRows rightRows : List Row}

/-- A pass that takes another `k` fetches until no left row is held. The inputs had `l` and `r` resets
before the reset that began it. -/
inductive Pass (l r : Nat) :
    Nat → State (.join (.list leftTag leftSchema leftRows) (.list rightTag rightSchema rightRows)) →
      Prop
  /-- The left row at `i` goes with the right rows from `j` on. Without right rows it is the first. -/
  | pairing {i j : Nat} {a : Row} (ha : leftRows[i]? = some a) (hj : j ≤ rightRows.length)
      (hi : rightRows.length = 0 → i = 0) :
      Pass l r ((leftRows.length - (i + 1)) * rightRows.length + (rightRows.length - j) + 1)
        (.join (.list (i + 1) (l + 1) 0) (.list j (r + (i + 1)) 0) (some a) false)
  | ended {i j resets : Nat}
      (h : resets = r + rightResets leftRows.length rightRows.length) :
      Pass l r 0 (.join (.list i (l + 1) 0) (.list j resets 0) none false)

/-- A reset begins a pass, wherever the last one stands. -/
theorem pass_reset (catalog : Catalog) (i j l r : Nat) (held : Option Row) :
    Pass l r (passLength leftRows.length rightRows.length)
      (reset catalog (.join (.list leftTag leftSchema leftRows) (.list rightTag rightSchema rightRows))
        (.join (.list i l 0) (.list j r 0) held false)) := by
  simp only [reset]
  rcases hf : fetch catalog (.list leftTag leftSchema leftRows) (.list 0 (l + 1) 0)
    with ⟨_ | a, outer⟩
  · obtain ⟨hm, rfl⟩ := fetch_list_eq_none hf
    rw [passLength, if_pos (Nat.le_zero.mp hm)]
    exact .ended (by rw [rightResets, if_pos (Nat.le_zero.mp hm)])
  · obtain ⟨ha, rfl⟩ := fetch_list_eq_some hf
    obtain ⟨hm, -⟩ := List.getElem?_eq_some_iff.mp ha
    have hk : passLength leftRows.length rightRows.length =
        (leftRows.length - (0 + 1)) * rightRows.length + (rightRows.length - 0) + 1 := by
      rw [passLength, if_neg (Nat.ne_of_gt hm), Nat.sub_zero, ← Nat.succ_mul, Nat.succ_eq_add_one,
        Nat.sub_add_cancel hm]
    rw [hk]
    exact .pairing ha (Nat.zero_le _) fun _ => rfl

variable {l r k : Nat}

/-- Behind the last left row there were as many resets as left rows. -/
theorem rightResets_succ {i n : Nat} (hi : n = 0 → i = 0) : rightResets (i + 1) n = i + 1 := by
  unfold rightResets
  by_cases hn : n = 0
  · simp [hn, hi hn]
  · simp [hn]

/-- Each way in which a join that holds a left row answers takes one fetch off the pass. -/
theorem pass_fetch_join {catalog : Catalog} {i j : Nat} {a : Row} {answer : Option Row ×
      State (.join (.list leftTag leftSchema leftRows) (.list rightTag rightSchema rightRows))}
    (ha : leftRows[i]? = some a) (hj : j ≤ rightRows.length) (hi : rightRows.length = 0 → i = 0)
    (h : JoinFetches catalog (.list (i + 1) (l + 1) 0) (.list j (r + (i + 1)) 0) (some a) false
      answer) :
    let k := (leftRows.length - (i + 1)) * rightRows.length + (rightRows.length - j)
    (answer.1 = none ↔ k = 0) ∧ Pass l r k answer.2 := by
  intro k
  obtain ⟨hlt, -⟩ := List.getElem?_eq_some_iff.mp ha
  cases h with
  | idle h => simp at h
  | paired hr =>
    obtain ⟨hb, rfl⟩ := fetch_list_eq_some hr
    obtain ⟨hb, -⟩ := List.getElem?_eq_some_iff.mp hb
    have hk : k = (leftRows.length - (i + 1)) * rightRows.length +
        (rightRows.length - (j + 1)) + 1 := by omega
    rw [hk]
    exact ⟨by simp, .pairing ha hb hi⟩
  | ended hr hl =>
    obtain ⟨hn, rfl⟩ := fetch_list_eq_none hr
    obtain ⟨hm, rfl⟩ := fetch_list_eq_none hl
    have hlast : leftRows.length = i + 1 := by omega
    have hk : k = 0 := by simp [k, hlast, Nat.sub_eq_zero_of_le hn]
    rw [hk]
    exact ⟨by simp, .ended (by rw [hlast, rightResets_succ hi])⟩
  | advanced hr hl hfirst =>
    obtain ⟨hend, rfl⟩ := fetch_list_eq_none hr
    obtain ⟨ha', rfl⟩ := fetch_list_eq_some hl
    obtain ⟨hb, rfl⟩ := fetch_list_eq_some hfirst
    obtain ⟨hm, -⟩ := List.getElem?_eq_some_iff.mp ha'
    obtain ⟨hn, -⟩ := List.getElem?_eq_some_iff.mp hb
    have hk : k = (leftRows.length - (i + 1 + 1)) * rightRows.length +
        (rightRows.length - (0 + 1)) + 1 := by
      have hstep : leftRows.length - (i + 1) = leftRows.length - (i + 1 + 1) + 1 := by omega
      simp only [k, hstep, Nat.succ_mul]
      omega
    rw [hk]
    exact ⟨by simp, .pairing ha' hn fun h => absurd hn (by omega)⟩
  | empty hr hl hempty =>
    obtain ⟨-, rfl⟩ := fetch_list_eq_none hr
    obtain ⟨ha', rfl⟩ := fetch_list_eq_some hl
    obtain ⟨hb, rfl⟩ := fetch_list_eq_none hempty
    obtain ⟨hm, -⟩ := List.getElem?_eq_some_iff.mp ha'
    have hn : rightRows.length = 0 := Nat.le_zero.mp hb
    obtain rfl := hi hn
    have hk : k = 0 := by simp only [k, hn, Nat.mul_zero, Nat.zero_sub]
    have hcount : rightResets leftRows.length rightRows.length = 2 := by
      rw [rightResets, if_neg (by omega), if_pos hn, Nat.min_eq_right hm]
    rw [hk]
    exact ⟨by simp, .ended (by rw [hcount])⟩

/-- A fetch takes one fetch off the pass, and finds nothing exactly at its end. -/
theorem Pass.fetch
    {s : State (.join (.list leftTag leftSchema leftRows) (.list rightTag rightSchema rightRows))}
    (h : Pass l r k s) (catalog : Catalog) :
    ((Plan.fetch catalog _ s).1 = none ↔ k ≤ 1) ∧ Pass l r (k - 1) (Plan.fetch catalog _ s).2 := by
  cases h with
  | ended h => exact ⟨iff_of_true rfl (Nat.zero_le 1), .ended h⟩
  | pairing ha hj hi =>
    rw [Nat.add_sub_cancel, Nat.succ_le_succ_iff, Nat.le_zero]
    exact pass_fetch_join ha hj hi (joinFetches catalog _ _ _ _)

/-- At its end a pass has added its resets to the ones before it. -/
theorem Pass.tallies
    {s : State (.join (.list leftTag leftSchema leftRows) (.list rightTag rightSchema rightRows))}
    (h : Pass l r 0 s) : Plan.tallies _ s = [⟨leftTag, l + 1, 0⟩,
      ⟨rightTag, r + rightResets leftRows.length rightRows.length, 0⟩] := by
  cases h with
  | ended h =>
    subst h
    rfl

end Pass

end PullSql.Plan
