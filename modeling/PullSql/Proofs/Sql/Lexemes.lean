import PullSql.Proofs.Sql.Scanning

/-!
# Lexemes

What the scanner takes for a token, apart from positions and bounds.

1. A lexeme is the token that starts with a given character, with the input behind it (`Lexeme`). It is
   what the scanner reads there (`read_eq_ok_iff`).
2. A lexeme takes a character at least (`Lexeme.length_le`), so any bound beyond the length of the text
   gives the same tokens (`tokensWithin_eq`).
-/

namespace PullSql.Sql

open Spelling

/-- The character `c` and what is behind it begin with a token, and then comes the last argument. -/
inductive Lexeme (c : Char) (rest : List Char) : Token → List Char → Prop
  | mark {m : Mark} (h : Mark.ofChar? c = some m) : Lexeme c rest (.mark m) rest
  | text {s r} (hc : c = '\'') (h : closeText rest = some (s, r)) :
      Lexeme c rest (.text (String.ofList s)) r
  | identifier {name r} (hc : isIdentifierQuote c = true)
      (h : closeIdentifier c rest = some (name, r)) : Lexeme c rest (.identifier (String.ofList name)) r
  | numeral {run r t} (hc : c.isDigit = true) (h : numeralRun false (c :: rest) = (run, r))
      (ht : numeralToken? run = some t) : Lexeme c rest t r
  | word (hc : c.isAlpha = true) :
      Lexeme c rest (wordToken (String.ofList ((c :: rest).takeWhile isWordChar)))
        ((c :: rest).dropWhile isWordChar)

/-! ## What the scanner reads -/

theorem identifierQuote_cases {c : Char} (h : isIdentifierQuote c = true) : c = '"' ∨ c = '\x60' := by
  rw [isIdentifierQuote, Bool.or_eq_true, decide_eq_true_eq, decide_eq_true_eq] at h
  exact h

theorem exists_lexeme_of_read {s s' : Scanner} {c : Char} {rest : List Char} {t : Token}
    (h : s.read c rest = (.ok t, s')) : ∃ r, Lexeme c rest t r ∧ s' = s.moveTo r := by
  unfold Scanner.read at h
  split at h
  · rename_i m hm
    cases h
    exact ⟨rest, .mark hm, rfl⟩
  split_ifs at h with hq hi hd ha
  · split at h
    · rename_i v r hclose
      cases h
      exact ⟨r, .text hq hclose, rfl⟩
    · cases h
  · split at h
    · rename_i v r hclose
      cases h
      exact ⟨r, .identifier hi hclose, rfl⟩
    · cases h
  · split at h
    rename_i run r hrun
    split at h
    · rename_i t' ht
      cases h
      exact ⟨r, .numeral hd hrun ht, rfl⟩
    · cases h
  · obtain ⟨ht, rfl⟩ := Prod.mk.inj h
    obtain rfl := Except.ok.inj ht
    exact ⟨_, .word ha, rfl⟩
  · cases h

/-- Only one kind of token begins with a character. -/
theorem Lexeme.read {c : Char} {rest r : List Char} {t : Token} (h : Lexeme c rest t r) (s : Scanner) :
    s.read c rest = (.ok t, s.moveTo r) := by
  cases h with
  | mark hm => simp only [Scanner.read, hm]
  | text hc hclose =>
    subst hc
    have hm : Mark.ofChar? '\'' = none := rfl
    simp only [Scanner.read, hm, hclose, if_true]
  | identifier hc hclose =>
    have hm : Mark.ofChar? c = none := by rcases identifierQuote_cases hc with rfl | rfl <;> rfl
    have hne : c ≠ '\'' := by rcases identifierQuote_cases hc with rfl | rfl <;> decide
    simp only [Scanner.read, hm, hne, hc, hclose, if_true, if_false]
  | numeral hc hrun ht =>
    rw [read_of_isDigit hc hrun, ht]
    rfl
  | word hc => exact read_of_isAlpha hc rest s

/-- What is left of the input is a place of the same text. -/
theorem read_eq_ok_iff {s s' : Scanner} {c : Char} {rest : List Char} {t : Token} :
    s.read c rest = (.ok t, s') ↔ ∃ r, Lexeme c rest t r ∧ s' = s.moveTo r := by
  constructor
  · exact exists_lexeme_of_read
  · rintro ⟨r, h, rfl⟩
    exact h.read s

/-! ## Lengths -/

theorem length_lt_of_closeText {s v r : List Char} (h : closeText s = some (v, r)) :
    r.length < s.length := by
  fun_induction closeText s generalizing v with
  | case1 => cases h
  | case2 rest ih | case3 rest ih | case5 _ rest _ _ _ ih =>
    obtain ⟨p, hp, hv⟩ := Option.map_eq_some_iff.mp h
    cases hv
    have := ih hp
    simp only [List.length_cons]
    omega
  | case4 rest =>
    cases h
    exact Nat.lt_succ_self _

theorem length_lt_of_closeIdentifier {quote : Char} {s v r : List Char}
    (h : closeIdentifier quote s = some (v, r)) : r.length < s.length := by
  fun_induction closeIdentifier quote s generalizing v with
  | case1 => cases h
  | case2 => cases h; exact Nat.lt_succ_self _
  | case3 => cases h
  | case4 rest ih | case6 _ _ rest _ ih =>
    obtain ⟨p, hp, hv⟩ := Option.map_eq_some_iff.mp h
    cases hv
    have := ih hp
    simp only [List.length_cons] at this ⊢
    omega
  | case5 => cases h; exact Nat.lt_succ_self _

theorem length_numeralRun_le (inFraction : Bool) (s : List Char) :
    (numeralRun inFraction s).2.length ≤ s.length := by
  fun_induction numeralRun inFraction s <;> simp_all <;> omega

theorem numeralRun_cons_of_isDigit {c : Char} (hc : c.isDigit = true) (inFraction : Bool)
    (s : List Char) :
    numeralRun inFraction (c :: s) = (c :: (numeralRun inFraction s).1, (numeralRun inFraction s).2) := by
  conv_lhs => unfold numeralRun
  simp only [hc, if_true]

theorem isWordChar_of_isAlpha {c : Char} (h : c.isAlpha = true) : isWordChar c = true := by
  simp [isWordChar, Char.isAlphanum, h]

theorem Lexeme.length_le {c : Char} {rest r : List Char} {t : Token} (h : Lexeme c rest t r) :
    r.length ≤ rest.length := by
  cases h with
  | mark => exact Nat.le_refl _
  | text _ hclose => exact Nat.le_of_lt (length_lt_of_closeText hclose)
  | identifier _ hclose => exact Nat.le_of_lt (length_lt_of_closeIdentifier hclose)
  | numeral hc hrun =>
    rw [numeralRun_cons_of_isDigit hc] at hrun
    cases hrun
    exact length_numeralRun_le false rest
  | word hc =>
    rw [List.dropWhile_cons_of_pos (isWordChar_of_isAlpha hc)]
    exact (List.dropWhile_suffix _).length_le

theorem numeralToken?_cases {run : List Char} {t : Token} (h : numeralToken? run = some t) :
    (∃ n, t = .integer n) ∨ ∃ d, t = .double d := by
  unfold numeralToken? at h
  split_ifs at h
  · dsimp only at h
    split at h <;> cases h
    · exact .inl ⟨_, rfl⟩
    · exact .inr ⟨_, rfl⟩
  · obtain ⟨n, -, rfl⟩ := Option.map_eq_some_iff.mp h
    exact .inr ⟨_, rfl⟩

/-- Only the scanner gives the end of the input. -/
theorem Lexeme.ne_end {c : Char} {rest r : List Char} {t : Token} (h : Lexeme c rest t r) :
    t ≠ .endOfInput := by
  cases h with
  | mark | text | identifier => exact Token.noConfusion
  | numeral _ _ ht =>
    rcases numeralToken?_cases ht with ⟨n, rfl⟩ | ⟨d, rfl⟩ <;> exact Token.noConfusion
  | word =>
    unfold wordToken
    split <;> exact Token.noConfusion

theorem length_afterGap_le (part : GapPart) (s : List Char) :
    (afterGap part s).length ≤ s.length := by
  fun_induction afterGap part s <;> simp_all <;> omega

/-! ## Whole texts -/

/-- One step of the scanner: the end of the input, or a lexeme behind the gap. -/
theorem next_eq_ok_iff {s s' : Scanner} {t : Token} :
    s.next = (.ok t, s') ↔
      (skipGap s.rest = [] ∧ t = .endOfInput ∧ s' = s.moveTo []) ∨
      ∃ c rest r, skipGap s.rest = c :: rest ∧ Lexeme c rest t r ∧ s' = s.moveTo r := by
  unfold Scanner.next
  cases hg : skipGap s.rest with
  | nil =>
    simp only [Scanner.moveTo, Prod.mk.injEq, Except.ok.injEq]
    grind
  | cons c rest =>
    show (s.moveTo (c :: rest)).read c rest = _ ↔ _
    rw [read_eq_ok_iff]
    constructor
    · rintro ⟨r, h, rfl⟩
      exact .inr ⟨c, rest, r, rfl, h, rfl⟩
    · rintro (⟨h, -⟩ | ⟨c', rest', r, h, hl, rfl⟩)
      · cases h
      · cases h
        exact ⟨r, hl, rfl⟩

/-- Every token but the end of the input takes a character. -/
theorem length_lt_of_next {s s' : Scanner} {t : Token} (h : s.next = (.ok t, s'))
    (ht : t ≠ .endOfInput) : s'.rest.length < s.rest.length := by
  rcases next_eq_ok_iff.mp h with ⟨-, h, -⟩ | ⟨c, rest, r, hg, hl, rfl⟩
  · exact absurd h ht
  · have hlength := length_afterGap_le .outside s.rest
    rw [show afterGap .outside s.rest = c :: rest from hg, List.length_cons] at hlength
    have := hl.length_le
    show r.length < _
    omega

theorem tokensWithin_of_end {bound : Nat} {s s' : Scanner} (h : s.next = (.ok .endOfInput, s')) :
    s.tokensWithin (bound + 1) = .ok [.endOfInput] := by
  simp only [Scanner.tokensWithin, h]

theorem tokensWithin_of_error {bound : Nat} {s s' : Scanner} {e : Error}
    (h : s.next = (.error e, s')) : s.tokensWithin (bound + 1) = .error e := by
  simp only [Scanner.tokensWithin, h]

theorem tokensWithin_of_token {bound : Nat} {s s' : Scanner} {t : Token} (h : s.next = (.ok t, s'))
    (ht : t ≠ .endOfInput) : s.tokensWithin (bound + 1) = (s'.tokensWithin bound).map (t :: ·) := by
  cases t with
  | endOfInput => exact absurd rfl ht
  | _ => simp only [Scanner.tokensWithin, h]

/-- A bound beyond the length of the text is none. -/
theorem tokensWithin_eq {m n : Nat} {s : Scanner} (hm : s.rest.length < m) (hn : s.rest.length < n) :
    s.tokensWithin m = s.tokensWithin n := by
  induction m generalizing s n with
  | zero => cases hm
  | succ m ih =>
    obtain ⟨n, rfl⟩ : ∃ k, n = k + 1 := ⟨n - 1, by omega⟩
    rcases hnext : s.next with ⟨e | t, s'⟩
    · rw [tokensWithin_of_error hnext, tokensWithin_of_error hnext]
    by_cases ht : t = .endOfInput
    · subst ht
      rw [tokensWithin_of_end hnext, tokensWithin_of_end hnext]
    · have := length_lt_of_next hnext ht
      rw [tokensWithin_of_token hnext ht, tokensWithin_of_token hnext ht,
        ih (s := s') (n := n) (by omega) (by omega)]

/-! ## Related texts -/

section Related

/-- The scanner finds the images of tokens in the second text, with related texts behind them. -/
def Simulates (f : Token → Token) (R : List Char → List Char → Prop) : Prop :=
  ∀ (length length' : Nat) {s s' r : List Char} {t : Token}, R s s' →
    (Scanner.mk length s).next = (.ok t, ⟨length, r⟩) →
      ∃ r', (Scanner.mk length' s').next = (.ok (f t), ⟨length', r'⟩) ∧ R r r'

variable {f : Token → Token} {R : List Char → List Char → Prop}

theorem tokensWithin_of_simulates (hstep : Simulates f R)
    (hend : ∀ t, f t = .endOfInput ↔ t = .endOfInput) {length length' bound : Nat}
    {s s' : List Char} {ts : List Token} (hs : R s s')
    (h : (Scanner.mk length s).tokensWithin bound = .ok ts) :
    (Scanner.mk length' s').tokensWithin bound = .ok (ts.map f) := by
  have hf : f .endOfInput = .endOfInput := (hend _).mpr rfl
  induction bound generalizing s s' ts with
  | zero =>
    cases h
    rw [List.map_singleton, hf]
    rfl
  | succ bound ih =>
    rcases hnext : (Scanner.mk length s).next with ⟨e | t, u⟩
    · rw [tokensWithin_of_error hnext] at h
      cases h
    obtain ⟨r, rfl⟩ : ∃ r, u = ⟨length, r⟩ := by
      rcases next_eq_ok_iff.mp hnext with ⟨-, -, rfl⟩ | ⟨_, _, r, -, -, rfl⟩
      · exact ⟨[], rfl⟩
      · exact ⟨r, rfl⟩
    obtain ⟨r', hnext', hr⟩ := hstep length length' hs hnext
    by_cases ht : t = .endOfInput
    · subst ht
      rw [tokensWithin_of_end hnext] at h
      cases h
      rw [hf] at hnext'
      rw [tokensWithin_of_end hnext', List.map_singleton, hf]
    rw [tokensWithin_of_token hnext ht] at h
    rcases hmore : (Scanner.mk length r).tokensWithin bound with e | us
    · rw [hmore] at h
      cases h
    · rw [hmore] at h
      cases h
      rw [tokensWithin_of_token hnext' (mt (hend t).mp ht), ih hr hmore]
      rfl

theorem tokens_of_simulates (hstep : Simulates f R)
    (hend : ∀ t, f t = .endOfInput ↔ t = .endOfInput) {sql sql' : String} {ts : List Token}
    (hs : R sql.toList sql'.toList) (h : tokens sql = .ok ts) : tokens sql' = .ok (ts.map f) := by
  have hbound : ∀ text : String, text.toList.length ≤ sql.toList.length + sql'.toList.length →
      tokens text = (Scanner.mk text.toList.length text.toList).tokensWithin
        (sql.toList.length + sql'.toList.length + 1) := fun text htext =>
    tokensWithin_eq (Nat.lt_succ_self _) (Nat.lt_succ_of_le htext)
  rw [hbound sql (Nat.le_add_right _ _)] at h
  rw [hbound sql' (Nat.le_add_left _ _)]
  exact tokensWithin_of_simulates hstep hend hs h

end Related

/-- What is in front of the first token does not count. -/
theorem simulates_skipGap : Simulates id fun s s' => skipGap s = skipGap s' := by
  intro length length' s s' r t hs h
  refine ⟨r, ?_, rfl⟩
  rcases next_eq_ok_iff.mp h with ⟨hg, rfl, hr⟩ | ⟨c, rest, r', hg, hl, hr⟩
  · cases hr
    exact next_eq_ok_iff.mpr (.inl ⟨hs.symm.trans hg, rfl, rfl⟩)
  · cases hr
    exact next_eq_ok_iff.mpr (.inr ⟨c, rest, _, hs.symm.trans hg, hl, rfl⟩)

end PullSql.Sql
