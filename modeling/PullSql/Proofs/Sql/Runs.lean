import PullSql.Proofs.Sql.Lexemes

/-!
# Runs of the scanner

A run is what repeated calls of the scanner give, up to any place of a text (`Scanner.Gives`).

1. The tokens of a text are those of a run up to its end, and the text has none exactly when a run ends
   in an error (`tokens_eq_ok_iff`, `tokens_eq_error_iff`).
2. A run takes characters from the front and does not depend on what is left, up to the next blank of
   it: a text that goes on otherwise from there (`Cut`) has the same run (`Scanner.Gives.of_cut`). Each
   loop of the scanner has its own lemma: gaps (`afterGap_of_cut`), quotes (`closeText_eq_some_iff`,
   `closeIdentifier_eq_some_iff`), numerals (`numeralRun_of_cut`) and words
   (`dropWhile_isWordChar_of_cut`).
-/

namespace PullSql.Sql

open Spelling

/-! ## Runs -/

/-- The scanner gives these tokens one after another, and then stands as the last argument says. -/
inductive Scanner.Gives : Scanner → List Token → Scanner → Prop
  | nil (s : Scanner) : Gives s [] s
  | cons {s r u : Scanner} {t : Token} {ts : List Token} (h : s.next = (.ok t, r))
      (ht : t ≠ .endOfInput) (hts : Gives r ts u) : Gives s (t :: ts) u

section Runs

variable {s u : Scanner} {ts us : List Token} {e : Error} {bound bound' : Nat}

theorem Scanner.gives_cons {t : Token} (h : s.Gives (t :: ts) u) :
    ∃ r, s.next = (.ok t, r) ∧ t ≠ .endOfInput ∧ r.Gives ts u := by
  cases h with
  | cons h ht hts => exact ⟨_, h, ht, hts⟩

theorem Scanner.Gives.length_le (h : s.Gives ts u) : u.rest.length ≤ s.rest.length := by
  induction h with
  | nil => exact Nat.le_refl _
  | cons h ht _ ih => exact ih.trans (Nat.le_of_lt (length_lt_of_next h ht))

theorem length_of_next {t : Token} (h : s.next = (.ok t, u)) : u.length = s.length := by
  rcases next_eq_ok_iff.mp h with ⟨-, -, rfl⟩ | ⟨_, _, _, -, -, rfl⟩ <;> rfl

theorem Scanner.Gives.length_eq (h : s.Gives ts u) : u.length = s.length := by
  induction h with
  | nil => rfl
  | cons h _ _ ih => exact ih.trans (length_of_next h)

theorem Scanner.Gives.not_mem_end (h : s.Gives ts u) : Token.endOfInput ∉ ts := by
  induction h with
  | nil => exact List.not_mem_nil
  | cons h ht _ ih => exact List.not_mem_cons_of_ne_of_not_mem ht.symm ih

/-- Behind a run the tokens are those of what is left. -/
theorem Scanner.Gives.tokensWithin_eq (h : s.Gives ts u) (hs : s.rest.length < bound)
    (hu : u.rest.length < bound') :
    s.tokensWithin bound = (u.tokensWithin bound').map (ts ++ ·) := by
  induction h generalizing bound with
  | nil s =>
    rw [Sql.tokensWithin_eq hs hu]
    cases s.tokensWithin bound' <;> rfl
  | @cons s r u t ts h ht hts ih =>
    obtain ⟨bound, rfl⟩ : ∃ b, bound = b + 1 := ⟨bound - 1, by omega⟩
    have hr := length_lt_of_next h ht
    rw [tokensWithin_of_token h ht, ih (by omega) hu]
    cases u.tokensWithin bound' <;> rfl

/-- A run up to the end of the input or up to an error. -/
theorem exists_gives (s : Scanner) :
    ∃ ts u, s.Gives ts u ∧ ((∃ r, u.next = (.ok .endOfInput, r)) ∨ ∃ e r, u.next = (.error e, r)) := by
  induction hn : s.rest.length using Nat.strong_induction_on generalizing s with
  | _ n ih =>
    rcases hs : s.next with ⟨e | t, r⟩
    · exact ⟨[], s, .nil s, .inr ⟨e, r, hs⟩⟩
    by_cases ht : t = .endOfInput
    · subst ht
      exact ⟨[], s, .nil s, .inl ⟨r, hs⟩⟩
    · have hr := length_lt_of_next hs ht
      obtain ⟨ts, u, hts, hu⟩ := ih _ (by omega) r rfl
      exact ⟨t :: ts, u, .cons hs ht hts, hu⟩

theorem Scanner.Gives.tokensWithin_of_end (h : s.Gives ts u) (hs : s.rest.length < bound)
    {r : Scanner} (hu : u.next = (.ok .endOfInput, r)) :
    s.tokensWithin bound = .ok (ts ++ [.endOfInput]) := by
  rw [h.tokensWithin_eq hs (Nat.lt_succ_self _), Sql.tokensWithin_of_end hu]
  rfl

theorem Scanner.Gives.tokensWithin_of_error (h : s.Gives ts u) (hs : s.rest.length < bound)
    {r : Scanner} (hu : u.next = (.error e, r)) : s.tokensWithin bound = .error e := by
  rw [h.tokensWithin_eq hs (Nat.lt_succ_self _), Sql.tokensWithin_of_error hu]
  rfl

theorem tokens_eq_ok_iff {sql : String} :
    tokens sql = .ok us ↔
      ∃ ts u, (Scanner.ofText sql).Gives ts u ∧ skipGap u.rest = [] ∧ us = ts ++ [.endOfInput] := by
  have hbound : (Scanner.ofText sql).rest.length < (Scanner.ofText sql).length + 1 := Nat.lt_succ_self _
  have hend : ∀ {u r : Scanner}, u.next = (.ok .endOfInput, r) → skipGap u.rest = [] := by
    intro u r h
    rcases next_eq_ok_iff.mp h with ⟨hg, -, -⟩ | ⟨_, _, _, -, hl, -⟩
    · exact hg
    · exact absurd rfl hl.ne_end
  constructor
  · intro h
    obtain ⟨ts, u, hts, ⟨r, hu⟩ | ⟨e, r, hu⟩⟩ := exists_gives (Scanner.ofText sql)
    · have ht := (hts.tokensWithin_of_end hbound hu).symm.trans h
      exact ⟨ts, u, hts, hend hu, (Except.ok.inj ht).symm⟩
    · cases (hts.tokensWithin_of_error hbound hu).symm.trans h
  · rintro ⟨ts, u, hts, hu, rfl⟩
    exact hts.tokensWithin_of_end hbound (next_eq_ok_iff.mpr (.inl ⟨hu, rfl, rfl⟩))

/-- Only the last token of a text is the end of the input. -/
theorem exists_body_of_tokens {sql : String} (h : tokens sql = .ok us) :
    ∃ body, us = body ++ [.endOfInput] ∧ Token.endOfInput ∉ body := by
  obtain ⟨ts, u, hts, -, rfl⟩ := tokens_eq_ok_iff.mp h
  exact ⟨ts, rfl, hts.not_mem_end⟩

theorem tokens_eq_error_iff {sql : String} :
    tokens sql = .error e ↔ ∃ ts u r, (Scanner.ofText sql).Gives ts u ∧ u.next = (.error e, r) := by
  have hbound : (Scanner.ofText sql).rest.length < (Scanner.ofText sql).length + 1 := Nat.lt_succ_self _
  constructor
  · intro h
    obtain ⟨ts, u, hts, ⟨r, hu⟩ | ⟨e', r, hu⟩⟩ := exists_gives (Scanner.ofText sql)
    · cases (hts.tokensWithin_of_end hbound hu).symm.trans h
    · obtain rfl := Except.error.inj ((hts.tokensWithin_of_error hbound hu).symm.trans h)
      exact ⟨ts, u, r, hts, hu⟩
  · rintro ⟨ts, u, r, hts, hu⟩
    exact hts.tokensWithin_of_error hbound hu

end Runs

/-! ## Texts that go on otherwise -/

/-- The second text is the first one up to some place, and there it ends or goes on with a blank. -/
inductive Cut : List Char → List Char → Prop
  | here {r r' : List Char} (h : Stops r') : Cut r r'
  | cons (c : Char) {r r' : List Char} (h : Cut r r') : Cut (c :: r) (c :: r')

variable {c d : Char} {r r' : List Char}

theorem Cut.append (h : Cut r r') (w : List Char) : Cut (w ++ r) (w ++ r') := by
  induction w with
  | nil => exact h
  | cons c w ih => exact .cons c ih

/-- A visible character at the front was there before. -/
theorem Cut.head? (h : Cut r r') (hd : Text.isBlank d = false) (hr : r'.head? = some d) :
    r.head? = some d := by
  cases h with
  | here hs => exact absurd hr (hs.head_ne hd)
  | cons c h => exact hr

/-! ## Gaps -/

/-- What begins a gap stands behind none. -/
theorem visible_of_afterGap {part : GapPart} {s : List Char} (h : afterGap part s = c :: r) :
    Text.isBlank c = false ∧ (c = '-' → r.head? ≠ some '-') ∧ (c = '/' → r.head? ≠ some '*') := by
  fun_induction afterGap part s with
  | case1 => cases h
  | case5 c' rest h1 h2 hc =>
    cases h
    refine ⟨by simpa using hc, ?_, ?_⟩
    · rintro rfl hr
      obtain ⟨t, ht⟩ := List.head?_eq_some_iff.mp hr
      exact h1 t rfl ht
    · rintro rfl hr
      obtain ⟨t, ht⟩ := List.head?_eq_some_iff.mp hr
      exact h2 t rfl ht
  | case2 _ ih | case3 _ ih | case4 _ _ _ _ _ ih | case6 _ _ ih | case7 _ ih | case8 _ _ _ ih =>
    exact ih h

/-- Where a token begins there is no gap, however the text goes on behind its first character. -/
theorem skipGap_cons_of_cut {s : List Char} (h : skipGap s = c :: r) (hr : Cut r r') :
    skipGap (c :: r') = c :: r' := by
  obtain ⟨hc, h1, h2⟩ := visible_of_afterGap h
  have hne : ∀ {a b : Char}, Text.isBlank b = false → (c = a → r.head? ≠ some b) →
      ∀ t, c = a → r' = b :: t → False := by
    rintro a b hb hr' t ha rfl
    exact hr' ha (hr.head? hb rfl)
  rw [skipGap, afterGap, if_neg (by simp [hc])]
  · exact hne (by decide) h1
  · exact hne (by decide) h2

/-- A gap in front of something is passed over whatever this is. -/
theorem afterGap_of_cut {part : GapPart} {s : List Char} (h : afterGap part s = r) (hr : r ≠ []) :
    ∃ w, s = w ++ r ∧ ∀ r', Cut r r' → afterGap part (w ++ r') = skipGap r' := by
  fun_induction afterGap part s with
  | case1 => exact absurd h.symm hr
  | case2 rest ih =>
    obtain ⟨w, rfl, hw⟩ := ih h
    exact ⟨'-' :: '-' :: w, rfl, hw⟩
  | case3 rest ih =>
    obtain ⟨w, rfl, hw⟩ := ih h
    exact ⟨'/' :: '*' :: w, rfl, hw⟩
  | case4 c rest h1 h2 hc ih =>
    obtain ⟨w, rfl, hw⟩ := ih h
    refine ⟨c :: w, rfl, fun r' hr' => ?_⟩
    rw [List.cons_append, afterGap_blank hc, hw r' hr']
  | case5 c rest h1 h2 hc =>
    exact ⟨[], h, fun r' _ => rfl⟩
  | case6 c rest ih =>
    obtain ⟨w, rfl, hw⟩ := ih h
    refine ⟨c :: w, rfl, fun r' hr' => ?_⟩
    rw [List.cons_append, afterGap]
    exact hw r' hr'
  | case7 rest ih =>
    obtain ⟨w, rfl, hw⟩ := ih h
    exact ⟨'*' :: '/' :: w, rfl, hw⟩
  | case8 c rest h1 ih =>
    obtain ⟨w, rfl, hw⟩ := ih h
    refine ⟨c :: w, rfl, fun r' hr' => ?_⟩
    rw [List.cons_append, afterGap]
    · exact hw r' hr'
    · intro t hc ht
      have hhead := (hr'.append w).head? (d := '/') (by decide) (by rw [ht]; rfl)
      obtain ⟨t', ht'⟩ := List.head?_eq_some_iff.mp hhead
      exact h1 t' hc ht'

/-! ## Quotes -/

/-- A text literal is closed by the first quote that is no part of an escape. -/
theorem closeText_eq_some_iff {s v : List Char} :
    closeText s = some (v, r) ↔
      ∃ body, TextBody v body ∧ s = body ++ '\'' :: r ∧ r.head? ≠ some '\'' := by
  constructor
  · intro h
    fun_induction closeText s generalizing v with
    | case1 => cases h
    | case2 rest ih =>
      obtain ⟨p, hp, hv⟩ := Option.map_eq_some_iff.mp h
      cases hv
      obtain ⟨body, hb, rfl, hr⟩ := ih hp
      exact ⟨_, .escaped hb, rfl, hr⟩
    | case3 rest ih =>
      obtain ⟨p, hp, hv⟩ := Option.map_eq_some_iff.mp h
      cases hv
      obtain ⟨body, hb, rfl, hr⟩ := ih hp
      exact ⟨_, .doubled hb, rfl, hr⟩
    | case4 rest hrest =>
      cases h
      refine ⟨[], .nil, rfl, fun hr => ?_⟩
      obtain ⟨t, ht⟩ := List.head?_eq_some_iff.mp hr
      exact hrest t ht
    | case5 c rest h1 h2 h3 ih =>
      obtain ⟨p, hp, hv⟩ := Option.map_eq_some_iff.mp h
      cases hv
      obtain ⟨body, hb, rfl, hr⟩ := ih hp
      refine ⟨c :: body, .plain h3 ?_ hb, rfl, hr⟩
      rintro rfl
      -- a body cannot be empty behind a backslash, for then the closing quote would be escaped
      cases body with
      | nil => exact absurd rfl (h1 _ rfl)
      | cons d body =>
        refine ⟨d, rfl, ?_⟩
        rintro rfl
        exact h1 _ rfl rfl
  · rintro ⟨body, hb, rfl, hr⟩
    exact closeText_of_textBody hb hr

/-- A quoted identifier is closed by the first quote that is not doubled. -/
theorem closeIdentifier_eq_some_iff {quote : Char} {s name : List Char} :
    closeIdentifier quote s = some (name, r) ↔
      s = doubleQuotes quote name ++ quote :: r ∧ r.head? ≠ some quote := by
  constructor
  · intro h
    fun_induction closeIdentifier quote s generalizing name with
    | case1 => cases h
    | case2 => cases h; exact ⟨rfl, by simp⟩
    | case3 => cases h
    | case4 rest ih =>
      obtain ⟨p, hp, hv⟩ := Option.map_eq_some_iff.mp h
      cases hv
      obtain ⟨rfl, hr⟩ := ih hp
      exact ⟨by simp [doubleQuotes], hr⟩
    | case5 d rest hd =>
      cases h
      exact ⟨rfl, by simpa using hd⟩
    | case6 c d rest hc ih =>
      obtain ⟨p, hp, hv⟩ := Option.map_eq_some_iff.mp h
      cases hv
      obtain ⟨hs, hr⟩ := ih hp
      exact ⟨by simp [doubleQuotes, hc, hs], hr⟩
  · rintro ⟨rfl, hr⟩
    exact closeIdentifier_doubleQuotes name hr

/-! ## Numerals and words -/

theorem numeralRun_of_cut {inFraction : Bool} {s run : List Char}
    (h : numeralRun inFraction s = (run, r)) :
    s = run ++ r ∧ ∀ r', Cut r r' → numeralRun inFraction (run ++ r') = (run, r') := by
  fun_induction numeralRun inFraction s generalizing run with
  | case1 =>
    cases h
    refine ⟨rfl, fun r' hr => ?_⟩
    cases hr with
    | here hs => exact numeralRun_of_stops hs _
  | case2 inFraction c rest hc run₁ r₁ hrun ih =>
    cases h
    obtain ⟨rfl, hmore⟩ := ih hrun
    refine ⟨rfl, fun r' hr => ?_⟩
    rw [List.cons_append, numeralRun_cons_of_isDigit hc, hmore r' hr]
  | case3 inFraction c rest hc hpoint run₁ r₁ hrun ih =>
    cases h
    obtain ⟨rfl, hmore⟩ := ih hrun
    refine ⟨rfl, fun r' hr => ?_⟩
    -- the digit behind the point belongs to the run
    have hrun₁ : (run₁ ++ r').head?.any Char.isDigit = (run₁ ++ r).head?.any Char.isDigit := by
      cases run₁ with
      | cons d run₁ => rfl
      | nil =>
        cases r with
        | nil => simp at hpoint
        | cons d r =>
          have hd : d.isDigit = true := by
            simp only [Bool.and_eq_true] at hpoint
            exact hpoint.2
          rw [List.nil_append, numeralRun_cons_of_isDigit hd] at hrun
          cases hrun
    unfold numeralRun
    simp only [List.cons_append, if_neg hc, hrun₁, if_pos hpoint, hmore r' hr]
  | case4 inFraction c hc he rest run₁ r₁ hrun hpoint ih =>
    cases h
    obtain ⟨rfl, hmore⟩ := ih hrun
    refine ⟨rfl, fun r' hr => ?_⟩
    unfold numeralRun
    simp [hc, he, hmore r' hr]
  | case5 inFraction c hc he rest run₁ r₁ hrun hpoint ih =>
    cases h
    obtain ⟨rfl, hmore⟩ := ih hrun
    refine ⟨rfl, fun r' hr => ?_⟩
    unfold numeralRun
    simp [hc, he, hmore r' hr]
  | case6 inFraction c hc he rest hplus hminus run₁ r₁ hrun hpoint ih =>
    cases h
    obtain ⟨rfl, hmore⟩ := ih hrun
    refine ⟨rfl, fun r' hr => ?_⟩
    have hne : ∀ {d : Char}, Text.isBlank d = false → (∀ t, run₁ ++ r ≠ d :: t) →
        ∀ t, run₁ ++ r' ≠ d :: t := by
      intro d hd hne t ht
      obtain ⟨t', ht'⟩ := List.head?_eq_some_iff.mp ((hr.append run₁).head? hd (by rw [ht]; rfl))
      exact hne t' ht'
    have hpoint' : ¬ (decide (c = '.') && !inFraction && (run₁ ++ r').head?.any Char.isDigit) = true := by
      have hc' : c ≠ '.' := by
        rintro rfl
        exact absurd he (by decide)
      simp [hc']
    unfold numeralRun
    rw [List.cons_append]
    simp only [if_neg hc, if_neg hpoint', if_pos he]
    split
    · rename_i h
      exact absurd h (hne (by decide) hplus _)
    · rename_i h
      exact absurd h (hne (by decide) hminus _)
    · rw [hmore r' hr]
  | case7 inFraction c rest hc hpoint he =>
    cases h
    refine ⟨rfl, fun r' hr => ?_⟩
    cases hr with
    | here hs => exact numeralRun_of_stops hs _
    | @cons _ _ r' hr =>
      have hpoint' : ¬ (decide (c = '.') && !inFraction && r'.head?.any Char.isDigit) = true := by
        simp only [Bool.and_eq_true, Option.any_eq_true] at hpoint ⊢
        rintro ⟨hc', d, hd, hdigit⟩
        have hblank : Text.isBlank d = false := isBlank_of_isAlphanum (by simp [Char.isAlphanum, hdigit])
        exact hpoint ⟨hc', d, hr.head? hblank hd, hdigit⟩
      rw [List.nil_append]
      unfold numeralRun
      rw [if_neg hc, if_neg hpoint', if_neg he]

theorem dropWhile_isWordChar_of_cut {s : List Char} (hr : Cut (s.dropWhile isWordChar) r') :
    (s.takeWhile isWordChar ++ r').takeWhile isWordChar = s.takeWhile isWordChar ∧
      (s.takeWhile isWordChar ++ r').dropWhile isWordChar = r' := by
  have hword : ∀ c ∈ s.takeWhile isWordChar, isWordChar c = true := fun c hc =>
    List.mem_takeWhile_imp hc
  have hstop : ∀ c ∈ r'.head?, isWordChar c = false := by
    intro c hc
    by_cases hb : Text.isBlank c = true
    · exact isWordChar_eq_false hb
    · obtain ⟨t, ht⟩ := List.head?_eq_some_iff.mp (hr.head? (by simpa using hb) hc)
      have hdrop := List.head?_dropWhile_not isWordChar s
      rw [ht] at hdrop
      exact hdrop
  rw [List.takeWhile_append_of_pos hword, List.dropWhile_append_of_pos hword]
  cases r' with
  | nil => simp
  | cons c r' => simp [hstop c rfl]

/-! ## Tokens -/

theorem Lexeme.of_cut {rest : List Char} {t : Token} (h : Lexeme c rest t r) :
    ∃ w, rest = w ++ r ∧ ∀ r', Cut r r' → Lexeme c (w ++ r') t r' := by
  have hne : ∀ {r' : List Char} {d : Char}, Text.isBlank d = false → r.head? ≠ some d →
      Cut r r' → r'.head? ≠ some d := fun hd hr hr' h => hr (hr'.head? hd h)
  cases h with
  | mark hm => exact ⟨[], rfl, fun r' _ => .mark hm⟩
  | text hc hclose =>
    obtain ⟨body, hb, rfl, hr⟩ := closeText_eq_some_iff.mp hclose
    refine ⟨body ++ ['\''], by simp, fun r' hr' => .text hc (closeText_eq_some_iff.mpr ?_)⟩
    exact ⟨body, hb, by simp, hne (by decide) hr hr'⟩
  | @identifier name _ hc hclose =>
    obtain ⟨rfl, hr⟩ := closeIdentifier_eq_some_iff.mp hclose
    have hblank : Text.isBlank c = false := by
      rcases identifierQuote_cases hc with rfl | rfl <;> decide
    refine ⟨doubleQuotes c name ++ [c], by simp,
      fun r' hr' => .identifier hc (closeIdentifier_eq_some_iff.mpr ?_)⟩
    exact ⟨by simp, hne hblank hr hr'⟩
  | @numeral run _ _ hc hrun ht =>
    obtain ⟨hs, hmore⟩ := numeralRun_of_cut hrun
    rw [numeralRun_cons_of_isDigit hc] at hrun
    cases hrun
    exact ⟨_, (List.cons.inj hs).2, fun r' hr' => .numeral hc (hmore r' hr') ht⟩
  | word hc =>
    have hw := isWordChar_of_isAlpha hc
    refine ⟨rest.takeWhile isWordChar, ?_, fun r' hr' => ?_⟩
    · rw [List.dropWhile_cons_of_pos hw, List.takeWhile_append_dropWhile]
    · obtain ⟨htake, hdrop⟩ := dropWhile_isWordChar_of_cut hr'
      have hword : Lexeme c (rest.takeWhile isWordChar ++ r') _ _ := .word hc
      rw [List.takeWhile_cons_of_pos hw] at htake hdrop ⊢
      rw [List.cons_append] at htake hdrop
      rwa [htake, hdrop] at hword

theorem next_of_cut {s : Scanner} {u : Scanner} {t : Token} (h : s.next = (.ok t, u))
    (ht : t ≠ .endOfInput) :
    ∃ w, s.rest = w ++ u.rest ∧ ∀ length r', Cut u.rest r' →
      (Scanner.mk length (w ++ r')).next = (.ok t, ⟨length, r'⟩) := by
  rcases next_eq_ok_iff.mp h with ⟨-, h, -⟩ | ⟨c, rest, r, hg, hl, rfl⟩
  · exact absurd h ht
  obtain ⟨w, hw, hgap⟩ := afterGap_of_cut hg (List.cons_ne_nil c rest)
  obtain ⟨v, rfl, hlexeme⟩ := hl.of_cut
  refine ⟨w ++ c :: v, by simp [hw, Scanner.moveTo], fun length r' hr' => ?_⟩
  have hcut : Cut (v ++ r) (v ++ r') := Cut.append hr' v
  refine next_eq_ok_iff.mpr (.inr ⟨c, v ++ r', r', ?_, hlexeme r' hr', rfl⟩)
  show afterGap .outside (w ++ c :: v ++ r') = _
  rw [List.append_assoc, List.cons_append, hgap _ (.cons c hcut), skipGap_cons_of_cut hg hcut]

/-- A run takes characters from the front, and takes them for the same tokens wherever the text ends or
has a blank behind them. -/
theorem Scanner.Gives.of_cut {s u : Scanner} {ts : List Token} (h : s.Gives ts u) :
    ∃ w, s.rest = w ++ u.rest ∧ ∀ length r', Cut u.rest r' →
      (Scanner.mk length (w ++ r')).Gives ts ⟨length, r'⟩ := by
  induction h with
  | nil s => exact ⟨[], rfl, fun length r' _ => .nil _⟩
  | @cons s r u t ts h ht _ ih =>
    obtain ⟨w, hs, hnext⟩ := next_of_cut h ht
    obtain ⟨v, hr, hmore⟩ := ih
    refine ⟨w ++ v, by rw [hs, hr, List.append_assoc], fun length r' hr' => ?_⟩
    have hcut : Cut r.rest (v ++ r') := hr ▸ hr'.append v
    rw [List.append_assoc]
    exact .cons (hnext length _ hcut) ht (hmore length r' hr')

end PullSql.Sql
