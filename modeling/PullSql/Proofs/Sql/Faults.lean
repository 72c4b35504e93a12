import PullSql.Proofs.Sql.Runs

/-!
# Where errors of the scanner point

An error of the scanner names the place where no token begins: what stands in front of it has the
tokens that were read before the error, and what stands there is what the error says (`FaultAt`,
`fault_of_tokens`). The reader of a quote or a numeral may have gone on to the end of the text by then,
so the place is that of the first character, not of the last one that was read.
-/

namespace PullSql.Sql

open Spelling

/-- What an error at a position says about the character there and those behind it. -/
inductive FaultAt (position : Nat) (c : Char) (rest : List Char) : Error → Prop
  /-- The character begins no token, whatever is behind it, and no gap either. -/
  | unexpected (hc : Text.isBlank c = false) (h : ∀ rest t r, ¬ Lexeme c rest t r) :
      FaultAt position c rest (.unexpectedCharacter c position)
  /-- A digit that begins no numeral. -/
  | number (hc : c.isDigit = true) (h : ∀ t r, ¬ Lexeme c rest t r) :
      FaultAt position c rest (.invalidNumber position)
  /-- Every quote behind this one is part of an escape. -/
  | text (hc : c = '\'')
      (h : ∀ v body r, TextBody v body → rest = body ++ '\'' :: r → r.head? = some '\'') :
      FaultAt position c rest (.unterminatedString position)
  /-- Every such quote behind this one is doubled. -/
  | identifier (hc : c = '"' ∨ c = '\x60')
      (h : ∀ name r, rest = doubleQuotes c name ++ c :: r → r.head? = some c) :
      FaultAt position c rest (.unterminatedString position)

/-- No other kind of token begins with what begins none of its own kind. -/
theorem faultAt_of_read {s s' : Scanner} {c : Char} {rest : List Char} {e : Error}
    (hc : Text.isBlank c = false) (h : s.read c rest = (.error e, s')) :
    FaultAt s.position c rest e := by
  have hnone : ∀ t r, ¬ Lexeme c rest t r := fun t r hl => by
    rw [hl.read s] at h
    cases h
  unfold Scanner.read at h
  split at h
  · cases h
  rename_i hmark
  split_ifs at h with hq hi hd ha
  · split at h
    · cases h
    · cases h
      refine .text hq fun v body r hb hr => ?_
      by_contra hne
      exact hnone _ _ (.text hq (closeText_eq_some_iff.mpr ⟨body, hb, hr, hne⟩))
  · split at h
    · cases h
    · cases h
      refine .identifier (identifierQuote_cases hi) fun name r hr => ?_
      by_contra hne
      exact hnone _ _ (.identifier hi (closeIdentifier_eq_some_iff.mpr ⟨hr, hne⟩))
  · split at h
    split at h
    · cases h
    · cases h
      exact .number hd hnone
  · cases h
  · cases h
    refine .unexpected hc fun rest t r hl => ?_
    cases hl with
    | mark hm => exact hmark _ hm
    | text hq' => exact hq hq'
    | identifier hi' => exact hi hi'
    | numeral hd' => exact hd hd'
    | word ha' => exact ha ha'

/-- An error comes up where a token would begin, behind the gap. -/
theorem fault_of_next {s s' : Scanner} {e : Error} (h : s.next = (.error e, s')) :
    ∃ c rest, skipGap s.rest = c :: rest ∧ FaultAt (s.length - (c :: rest).length) c rest e := by
  unfold Scanner.next at h
  cases hg : skipGap s.rest with
  | nil =>
    rw [hg] at h
    cases h
  | cons c rest =>
    rw [hg] at h
    exact ⟨c, rest, rfl, faultAt_of_read (visible_of_afterGap hg).1 h⟩

/-- **Where errors point.** A text without tokens has a character at the position of its error. What
stands in front of it has the tokens that were read before the error, and from there on the text is as
the error says. -/
theorem fault_of_tokens {sql : String} {e : Error} (h : tokens sql = .error e) :
    ∃ p c ts u, p < sql.length ∧ sql.toList[p]? = some c ∧
      (Scanner.ofText sql).Gives ts u ∧ u.next.1 = .error e ∧
      tokens (String.ofList (sql.toList.take p)) = .ok (ts ++ [.endOfInput]) ∧
      FaultAt p c (sql.toList.drop (p + 1)) e := by
  obtain ⟨ts, u, r, hts, hu⟩ := tokens_eq_error_iff.mp h
  obtain ⟨c, rest, hg, hfault⟩ := fault_of_next hu
  obtain ⟨gap, hgap, hmoreGap⟩ := afterGap_of_cut hg (List.cons_ne_nil c rest)
  obtain ⟨front, hfront, hmore⟩ := hts.of_cut
  have hsql : sql.toList = (front ++ gap) ++ c :: rest := by
    rw [List.append_assoc, ← hgap]
    exact hfront
  have hposition : u.length - (c :: rest).length = (front ++ gap).length := by
    have hlength : u.length = sql.toList.length := hts.length_eq
    rw [hlength, hsql, List.length_append, Nat.add_sub_cancel]
  rw [hposition] at hfault
  have hcut : Cut u.rest gap := by
    have hend : Cut (c :: rest) [] := .here stops_nil
    rw [hgap]
    simpa using hend.append gap
  have hprefix : tokens (String.ofList (front ++ gap)) = .ok (ts ++ [.endOfInput]) := by
    refine tokens_eq_ok_iff.mpr ⟨ts, ⟨(front ++ gap).length, gap⟩, ?_, ?_, rfl⟩
    · simpa [Scanner.ofText] using hmore (front ++ gap).length gap hcut
    · simpa [skipGap, afterGap] using hmoreGap [] (.here stops_nil)
  refine ⟨(front ++ gap).length, c, ts, u, ?_, ?_, hts, by rw [hu], ?_, ?_⟩
  · have hlength : sql.length = (front ++ gap).length + (c :: rest).length := by
      rw [← String.length_toList, hsql, List.length_append]
    rw [hlength]
    exact Nat.lt_add_of_pos_right (Nat.succ_pos _)
  · rw [hsql, List.getElem?_append_right (Nat.le_refl _), Nat.sub_self]
    rfl
  · rwa [hsql, List.take_left]
  · rwa [hsql, List.drop_append, Nat.sub_eq_of_eq_add (Nat.add_comm _ _),
      List.drop_eq_nil_of_le (Nat.le_succ _)]

/-- The closing quote is behind a backslash, and so it closes nothing. -/
theorem fault_of_tokens_of_escapedQuote :
    tokens "SELECT 1 -- it's\n'a\\'" = .error (.unterminatedString 17) ∧
      ∃ ts u, (Scanner.ofText "SELECT 1 -- it's\n'a\\'").Gives ts u ∧
        u.next.1 = .error (.unterminatedString 17) ∧
        tokens "SELECT 1 -- it's\n" = .ok (ts ++ [.endOfInput]) ∧
        FaultAt 17 '\'' ['a', '\\', '\''] (.unterminatedString 17) := by
  have h : tokens "SELECT 1 -- it's\n'a\\'" = .error (.unterminatedString 17) := by cbv
  obtain ⟨p, c, ts, u, -, hc, hts, hu, hprefix, hfault⟩ := fault_of_tokens h
  obtain rfl : p = 17 := by cases hfault <;> rfl
  have hquote : "SELECT 1 -- it's\n'a\\'".toList[17]? = some '\'' := by cbv
  obtain rfl : c = '\'' := Option.some.inj (hc.symm.trans hquote)
  exact ⟨h, ts, u, hts, hu, hprefix, hfault⟩

end PullSql.Sql
