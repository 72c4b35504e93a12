import Mathlib.Order.Monotone.Basic
import PullSql.Proofs.Sql.Runs

/-!
# Calls of the scanner

A scanner may be called again behind an error and behind the end of the input.

1. One call goes on or stands (`Scanner.Call`). At the end of the input and in front of a character that
   begins no token it stands, and so it gives the same answer again (`next_of_lasting`). With every other
   answer, errors included, it takes a character at least.
2. So among as many calls as the text has characters, and one more, there is one that stands
   (`exists_lasting`). The tokens of a text are what the calls in front of the first error or of the end
   have given (`Scanner.Gives.answer`).

Main statement: `calls_go_on_or_stand`.
-/

namespace PullSql.Sql

open Spelling

/-! ## Gaps -/

theorem Cut.refl (r : List Char) : Cut r r := by
  have h : Cut [] [] := .here stops_nil
  simpa using h.append r

/-- Behind a gap there is none. -/
theorem skipGap_skipGap (s : List Char) : skipGap (skipGap s) = skipGap s := by
  cases hg : skipGap s with
  | nil => rfl
  | cons c r => exact skipGap_cons_of_cut hg (.refl r)

theorem skipGap_suffix (s : List Char) : skipGap s <:+ s := by
  cases hg : skipGap s with
  | nil => exact List.nil_suffix
  | cons c r =>
    obtain ⟨w, hw, -⟩ := afterGap_of_cut hg (List.cons_ne_nil c r)
    exact ⟨w, hw.symm⟩

namespace Scanner

/-! ## One call -/

/-- The answers that are given again and again. -/
inductive Lasting : Except Error Token → Prop
  | endOfInput : Lasting (.ok .endOfInput)
  | unexpected (c : Char) (position : Nat) : Lasting (.error (.unexpectedCharacter c position))

/-- A call stands behind the gap, or it goes on to a later place of the text. -/
inductive Call (s : Scanner) : Except Error Token → Scanner → Prop
  | stands {a} (h : Lasting a) : Call s a (s.moveTo (skipGap s.rest))
  | goesOn {a r} (h : ¬ Lasting a) (hr : r <:+ s.rest) (hlength : r.length < s.rest.length) :
      Call s a (s.moveTo r)

variable {s u : Scanner} {a : Except Error Token}

/-- A quote that is not closed and a numeral without the form of one are taken from the input, an
unexpected character is not. -/
theorem read_error_cases {c : Char} {rest : List Char} {e : Error}
    (h : s.read c rest = (.error e, u)) :
    (Lasting (.error e) ∧ u = s) ∨
      ¬ Lasting (.error e) ∧ ∃ r, r <:+ rest ∧ u = s.moveTo r := by
  unfold Scanner.read at h
  split at h
  · cases h
  split_ifs at h with hq hi hd ha
  · split at h
    · cases h
    · cases h
      exact .inr ⟨by rintro ⟨⟩, [], List.nil_suffix, rfl⟩
  · split at h
    · cases h
    · cases h
      exact .inr ⟨by rintro ⟨⟩, [], List.nil_suffix, rfl⟩
  · split at h
    rename_i run r hrun
    split at h
    · cases h
    · cases h
      obtain ⟨hs, -⟩ := numeralRun_of_cut hrun
      rw [numeralRun_cons_of_isDigit hd] at hrun
      cases hrun
      exact .inr ⟨by rintro ⟨⟩, _, ⟨_, (List.cons.inj hs).2.symm⟩, rfl⟩
  · cases h
  · cases h
    exact .inl ⟨.unexpected c _, rfl⟩

theorem call_of_next (h : s.next = (a, u)) : s.Call a u := by
  unfold Scanner.next at h
  cases hg : skipGap s.rest with
  | nil =>
    rw [hg] at h
    cases h
    rw [← hg]
    exact .stands .endOfInput
  | cons c rest =>
    rw [hg] at h
    have hrest : c :: rest <:+ s.rest := hg ▸ skipGap_suffix s.rest
    have hmoves : ∀ {r}, ¬ Lasting a → r <:+ rest → s.Call a (s.moveTo r) := by
      intro r hl hr
      refine .goesOn hl ((hr.trans (List.suffix_cons c rest)).trans hrest) ?_
      exact Nat.lt_of_le_of_lt hr.length_le hrest.length_le
    cases a with
    | ok t =>
      obtain ⟨r, hl, rfl⟩ := exists_lexeme_of_read h
      obtain ⟨v, hv, -⟩ := hl.of_cut
      exact hmoves (fun hlast => by cases hlast; exact hl.ne_end rfl) ⟨v, hv.symm⟩
    | error e =>
      rcases read_error_cases h with ⟨hlast, rfl⟩ | ⟨hl, r, hr, rfl⟩
      · have hstands : s.Call (.error e) (s.moveTo (skipGap s.rest)) := .stands hlast
        rwa [hg] at hstands
      · exact hmoves hl hr

theorem next_moveTo_skipGap (s : Scanner) : (s.moveTo (skipGap s.rest)).next = s.next := by
  simp only [Scanner.next, moveTo, skipGap_skipGap]

/-- Where a call stands, the next call finds what it has found. -/
theorem next_of_lasting (h : Lasting s.next.1) : s.next.2.next = s.next := by
  have hcall : s.Call s.next.1 s.next.2 := call_of_next rfl
  generalize s.next.2 = u at hcall ⊢
  cases hcall with
  | stands => exact next_moveTo_skipGap s
  | goesOn hl => exact absurd h hl

theorem suffix_of_call (h : s.Call a u) : u.rest <:+ s.rest := by
  cases h with
  | stands => exact skipGap_suffix s.rest
  | goesOn _ hr => exact hr

theorem length_eq_of_call (h : s.Call a u) : u.length = s.length := by
  cases h <;> rfl

/-! ## Many calls -/

/-- The scanner behind so many calls, whether they give tokens or errors. -/
def afterCalls (s : Scanner) : Nat → Scanner
  | 0 => s
  | k + 1 => (s.afterCalls k).next.2

/-- The number of characters read by so many calls. -/
def reached (s : Scanner) (k : Nat) : Nat := (s.afterCalls k).position

/-- The answer of the call behind so many others. -/
def answer (s : Scanner) (k : Nat) : Except Error Token := (s.afterCalls k).next.1

theorem call_afterCalls (s : Scanner) (k : Nat) :
    (s.afterCalls k).Call (s.answer k) (s.afterCalls (k + 1)) := call_of_next rfl

theorem afterCalls_succ (s : Scanner) (k : Nat) :
    s.afterCalls (k + 1) = s.next.2.afterCalls k := by
  induction k with
  | zero => rfl
  | succ k ih => rw [afterCalls, ih, afterCalls]

theorem length_afterCalls (s : Scanner) (k : Nat) : (s.afterCalls k).length = s.length := by
  induction k with
  | zero => rfl
  | succ k ih => exact (length_eq_of_call (s.call_afterCalls k)).trans ih

theorem suffix_afterCalls (s : Scanner) {j k : Nat} (h : j ≤ k) :
    (s.afterCalls k).rest <:+ (s.afterCalls j).rest := by
  induction h with
  | refl => exact List.suffix_rfl
  | step _ ih => exact (suffix_of_call (s.call_afterCalls _)).trans ih

theorem length_afterCalls_lt {k : Nat} (h : ¬ Lasting (s.answer k)) :
    (s.afterCalls (k + 1)).rest.length < (s.afterCalls k).rest.length := by
  have hcall := s.call_afterCalls k
  generalize s.afterCalls (k + 1) = u at hcall ⊢
  cases hcall with
  | stands hlast => exact absurd hlast h
  | goesOn _ _ hlength => exact hlength

/-- Once an answer lasts, all later ones are the same. -/
theorem answer_of_lasting {j k : Nat} (h : Lasting (s.answer j)) (hk : j ≤ k) :
    s.answer k = s.answer j := by
  induction hk with
  | refl => rfl
  | @step k _ ih =>
    have hlast : Lasting (s.answer k) := ih ▸ h
    have hnext : (s.afterCalls (k + 1)).next = (s.afterCalls k).next := next_of_lasting hlast
    rw [answer, hnext]
    exact ih

/-- As long as no answer lasts, each call takes a character. -/
theorem length_afterCalls_add_le {k : Nat} (h : ∀ j < k, ¬ Lasting (s.answer j)) :
    (s.afterCalls k).rest.length + k ≤ s.rest.length := by
  induction k with
  | zero => exact Nat.le_refl _
  | succ k ih =>
    have hk := ih fun j hj => h j (Nat.lt_succ_of_lt hj)
    have hlt := length_afterCalls_lt (h k (Nat.lt_succ_self k))
    omega

theorem exists_lasting (s : Scanner) : ∃ k ≤ s.rest.length, Lasting (s.answer k) := by
  by_contra hnone
  push Not at hnone
  have hle := length_afterCalls_add_le (k := s.rest.length + 1) fun j hj =>
    hnone j (Nat.le_of_lt_succ hj)
  omega

/-! ## Calls and tokens -/

/-- The tokens of a run are the answers of its calls. -/
theorem Gives.answer {ts : List Token} (h : s.Gives ts u) :
    s.afterCalls ts.length = u ∧ ∀ i (hi : i < ts.length), s.answer i = .ok ts[i] := by
  induction h with
  | nil s => exact ⟨rfl, fun i hi => absurd hi (Nat.not_lt_zero i)⟩
  | @cons s r u t ts hnext _ _ ih =>
    have hr : s.next.2 = r := congrArg Prod.snd hnext
    refine ⟨?_, fun i hi => ?_⟩
    · rw [List.length_cons, afterCalls_succ, hr]
      exact ih.1
    · cases i with
      | zero => exact congrArg Prod.fst hnext
      | succ i =>
        have hi : i < ts.length := Nat.lt_of_succ_lt_succ hi
        rw [Scanner.answer, afterCalls_succ, hr]
        exact ih.2 i hi

theorem Gives.length_add_le {ts : List Token} (h : s.Gives ts u) :
    ts.length + u.rest.length ≤ s.rest.length := by
  induction h with
  | nil => simp
  | cons hnext ht _ ih =>
    have hlt := length_lt_of_next hnext ht
    rw [List.length_cons]
    omega

end Scanner

/-! ## Whole texts -/

open Scanner

/-- **Calls go on or stand.** On one scanner for a text the position never goes back and never beyond the
end, and what is left is the text behind it. A call that gives neither the end of the input nor an
unexpected character takes a character at least; one that does is answered like this from then on, and
as many calls as there are characters lead to such a one. So there are finitely many tokens in front of
the first error or of the end, and these are the tokens of the text. -/
theorem calls_go_on_or_stand (sql : String) :
    (Monotone (ofText sql).reached ∧
      ∀ k, (ofText sql).reached k ≤ sql.length ∧
        ((ofText sql).afterCalls k).rest = sql.toList.drop ((ofText sql).reached k)) ∧
    (∀ k, ¬ Lasting ((ofText sql).answer k) →
      (ofText sql).reached k < (ofText sql).reached (k + 1)) ∧
    (∀ j k, Lasting ((ofText sql).answer j) → j ≤ k →
      (ofText sql).answer k = (ofText sql).answer j) ∧
    (∃ k ≤ sql.length, Lasting ((ofText sql).answer k)) ∧
    ∃ ts : List Token, ts.length ≤ sql.length ∧ .endOfInput ∉ ts ∧
      (∀ i (hi : i < ts.length), (ofText sql).answer i = .ok ts[i]) ∧
      ((ofText sql).answer ts.length = .ok .endOfInput ∧ tokens sql = .ok (ts ++ [.endOfInput]) ∨
        ∃ e, (ofText sql).answer ts.length = .error e ∧ tokens sql = .error e) := by
  have hlength : (ofText sql).rest.length = sql.length := String.length_toList
  have hreached : ∀ k, (ofText sql).reached k =
      sql.length - ((ofText sql).afterCalls k).rest.length := fun k => by
    rw [← hlength]
    exact congrArg (· - _) ((ofText sql).length_afterCalls k)
  have hsuffix : ∀ k, ((ofText sql).afterCalls k).rest <:+ sql.toList := fun k =>
    (ofText sql).suffix_afterCalls (Nat.zero_le k)
  refine ⟨⟨fun j k hjk => ?_, fun k => ⟨?_, ?_⟩⟩, fun k hk => ?_, fun j k => answer_of_lasting, ?_, ?_⟩
  · rw [hreached, hreached]
    exact Nat.sub_le_sub_left ((ofText sql).suffix_afterCalls hjk).length_le _
  · rw [hreached]
    exact Nat.sub_le _ _
  · rw [hreached, ← String.length_toList]
    exact List.suffix_iff_eq_drop.mp (hsuffix k)
  · have hlt := length_afterCalls_lt hk
    have hle := (hsuffix k).length_le
    rw [String.length_toList] at hle
    rw [hreached, hreached]
    omega
  · rw [← hlength]
    exact (ofText sql).exists_lasting
  · obtain ⟨ts, u, hts, hu⟩ := exists_gives (ofText sql)
    obtain ⟨hafter, hanswer⟩ := hts.answer
    refine ⟨ts, ?_, hts.not_mem_end, hanswer, ?_⟩
    · have hle := hts.length_add_le
      omega
    · rw [Scanner.answer, hafter]
      rcases hu with ⟨r, hu⟩ | ⟨e, r, hu⟩
      · exact .inl ⟨by rw [hu], hts.tokensWithin_of_end (Nat.lt_succ_self _) hu⟩
      · exact .inr ⟨e, by rw [hu], hts.tokensWithin_of_error (Nat.lt_succ_self _) hu⟩

end PullSql.Sql
