import PullSql.Proofs.Sql.Runs

/-!
# Texts on lines of their own

A line break ends every token and every comment but one: a block comment that is still open goes on
behind it (`EndsInComment`). So the tokens of two texts with a line break between them are those of the
first text and then those of the second one, and errors of the second text stay what they are, farther
on by what stands in front (`tokens_of_lines`).
-/

namespace PullSql

/-- The error farther on by `n` characters, if it has a position. -/
def Error.shift (n : Nat) : Error → Error
  | unexpectedCharacter c position => unexpectedCharacter c (position + n)
  | unterminatedString position => unterminatedString (position + n)
  | invalidNumber position => invalidNumber (position + n)
  | e => e

namespace Sql

open Spelling

/-! ## Behind other characters -/

section Shift

variable (n : Nat) {length bound : Nat} {s : List Char}

theorem read_shift (hs : s.length ≤ length) (c : Char) (rest : List Char) :
    (Scanner.mk (length + n) s).read c rest =
      (((Scanner.mk length s).read c rest).1.mapError (Error.shift n),
        ⟨length + n, ((Scanner.mk length s).read c rest).2.rest⟩) := by
  have hposition : (Scanner.mk (length + n) s).position = (Scanner.mk length s).position + n :=
    Nat.sub_add_comm hs
  unfold Scanner.read
  rw [hposition]
  cases Mark.ofChar? c with
  | some m => rfl
  | none =>
    dsimp only
    split_ifs
    · cases closeText rest <;> rfl
    · cases closeIdentifier c rest <;> rfl
    · cases numeralToken? (numeralRun false (c :: rest)).1 <;> rfl
    · rfl
    · rfl

/-- What stands in front of a text moves its errors and nothing else. -/
theorem next_shift (hs : s.length ≤ length) :
    (Scanner.mk (length + n) s).next =
      ((Scanner.mk length s).next.1.mapError (Error.shift n),
        ⟨length + n, (Scanner.mk length s).next.2.rest⟩) := by
  have hgap := length_afterGap_le .outside s
  unfold Scanner.next
  simp only [Scanner.moveTo]
  rcases hg : skipGap s with _ | ⟨c, rest⟩
  · rfl
  · rw [show afterGap .outside s = c :: rest from hg] at hgap
    exact read_shift n (hgap.trans hs) c rest

theorem tokensWithin_shift (hs : s.length ≤ length) :
    (Scanner.mk (length + n) s).tokensWithin bound =
      ((Scanner.mk length s).tokensWithin bound).mapError (Error.shift n) := by
  induction bound generalizing s with
  | zero => rfl
  | succ bound ih =>
    have hshift := next_shift n hs
    rcases hnext : (Scanner.mk length s).next with ⟨e | t, u⟩
    · rw [hnext] at hshift
      rw [tokensWithin_of_error hnext, tokensWithin_of_error hshift]
      rfl
    rw [hnext] at hshift
    by_cases ht : t = .endOfInput
    · subst ht
      rw [tokensWithin_of_end hnext, tokensWithin_of_end hshift]
      rfl
    · obtain ⟨m, r⟩ := u
      obtain rfl : length = m := (length_of_next hnext).symm
      have hr : r.length < s.length := length_lt_of_next hnext ht
      have hshift : (Scanner.mk (length + n) s).next = (.ok t, ⟨length + n, r⟩) := hshift
      rw [tokensWithin_of_token hnext ht, tokensWithin_of_token hshift ht, ih (by omega)]
      cases (Scanner.mk length r).tokensWithin bound <;> rfl

end Shift

/-! ## Open comments -/

/-- Behind blanks and closed comments a block comment begins that is not closed. -/
def OpenComment (s : List Char) : Prop :=
  ∃ gap body, s = gap ++ '/' :: '*' :: body ∧ Filler gap ∧ ¬ ['*', '/'] <:+: body

/-- The text ends inside a block comment: there is one open behind its last token. -/
def EndsInComment (sql : String) : Prop :=
  ∃ ts u, (Scanner.ofText sql).Gives ts u ∧ OpenComment u.rest

/-- An open block comment in a text that begins inside a gap. -/
def OpenCommentIn : GapPart → List Char → Prop
  | .outside, s => OpenComment s
  | .lineComment, s => ∃ body rest, '\n' ∉ body ∧ s = body ++ '\n' :: rest ∧ OpenComment rest
  | .blockComment, s => ¬ ['*', '/'] <:+: s ∨
    ∃ body rest, ¬ ['*', '/'] <:+: body ∧ s = body ++ '*' :: '/' :: rest ∧ OpenComment rest

theorem not_infix_cons {c : Char} {s : List Char} (hs : ¬ ['*', '/'] <:+: s)
    (hc : ∀ t, c = '*' → s = '/' :: t → False) : ¬ ['*', '/'] <:+: c :: s := by
  rw [List.infix_cons_iff, not_or]
  refine ⟨?_, hs⟩
  rintro ⟨t, ht⟩
  obtain ⟨rfl, rfl⟩ := List.cons.inj ht
  exact hc t rfl rfl

/-- A line break behind a gap goes on with the gap, or a block comment is open there. -/
theorem afterGap_break {part : GapPart} {s : List Char} (h : afterGap part s = []) :
    (∀ t, afterGap part (s ++ '\n' :: t) = skipGap t) ∨ OpenCommentIn part s := by
  fun_induction afterGap part s with
  | case1 part =>
    cases part with
    | outside => exact .inl fun t => afterGap_blank (by decide) t
    | lineComment => exact .inl fun t => rfl
    | blockComment => exact .inr (.inl (by decide))
  | case2 rest ih =>
    refine (ih h).imp id ?_
    rintro ⟨body, rest, hb, rfl, gap, comment, rfl, hg, hc⟩
    exact ⟨_, comment, by simp, .line hb hg, hc⟩
  | case3 rest ih =>
    refine (ih h).imp id ?_
    rintro (hb | ⟨body, rest, hb, rfl, gap, comment, rfl, hg, hc⟩)
    · exact ⟨[], rest, rfl, .nil, hb⟩
    · exact ⟨_, comment, by simp, .block hb hg, hc⟩
  | case4 c rest h1 h2 hc ih =>
    refine (ih h).imp (fun hmore t => ?_) ?_
    · rw [List.cons_append, afterGap_blank hc, hmore]
    · rintro ⟨gap, comment, rfl, hg, hcomment⟩
      exact ⟨c :: gap, comment, rfl, .blank hc hg, hcomment⟩
  | case5 => cases h
  | case6 c rest ih =>
    refine (ih h).imp (fun hmore t => ?_) ?_
    · rw [List.cons_append, afterGap, hmore]
    · intro hopen
      by_cases hc : c = '\n'
      · subst hc
        exact ⟨[], rest, List.not_mem_nil, rfl, hopen⟩
      · rw [if_neg hc] at hopen
        obtain ⟨body, rest, hb, rfl, hrest⟩ := hopen
        exact ⟨c :: body, rest, by simp [hb, Ne.symm hc], rfl, hrest⟩
  | case7 rest ih =>
    refine (ih h).imp id fun hopen => .inr ⟨[], rest, by decide, rfl, hopen⟩
  | case8 c rest h1 ih =>
    refine (ih h).imp (fun hmore t => ?_) ?_
    · rw [List.cons_append, afterGap]
      · exact hmore t
      · rintro t' hc ht
        cases rest with
        | nil => cases ht
        | cons d rest => exact h1 rest hc (by rw [(List.cons.inj ht).1])
    · rintro (hb | ⟨body, rest, hb, rfl, hrest⟩)
      · exact .inl (not_infix_cons hb h1)
      · refine .inr ⟨c :: body, rest, not_infix_cons hb ?_, rfl, hrest⟩
        rintro t hc rfl
        exact h1 _ hc rfl

/-- A text that ends inside a comment opens one somewhere. -/
theorem not_endsInComment {sql : String} (h : ¬ ['/', '*'] <:+: sql.toList) : ¬ EndsInComment sql := by
  rintro ⟨ts, u, hts, gap, body, hu, -, -⟩
  obtain ⟨w, hw, -⟩ := hts.of_cut
  refine h ⟨w ++ gap, body, ?_⟩
  have hsql : sql.toList = w ++ u.rest := hw
  rw [hsql, hu]
  simp

/-! ## Two texts -/

theorem tokensWithin_congr {length bound : Nat} {s s' : List Char} (h : skipGap s = skipGap s') :
    (Scanner.mk length s).tokensWithin bound = (Scanner.mk length s').tokensWithin bound := by
  have hnext : (Scanner.mk length s).next = (Scanner.mk length s').next := by
    simp only [Scanner.next, Scanner.moveTo, h]
  cases bound with
  | zero => rfl
  | succ bound => simp only [Scanner.tokensWithin, hnext]

theorem tokens_break {first second : String} {us : List Token} {u : Scanner}
    (h : (Scanner.ofText first).Gives us u)
    (hu : ∀ t, skipGap (u.rest ++ '\n' :: t) = skipGap t) :
    tokens (first ++ "\n" ++ second) =
      ((tokens second).mapError (Error.shift (first.length + 1))).map (us ++ ·) := by
  let length := second.toList.length + (first.length + 1)
  have htext : (first ++ "\n" ++ second).toList = first.toList ++ '\n' :: second.toList := by simp
  have hlength : (first.toList ++ '\n' :: second.toList).length = length := by
    show _ = second.toList.length + (first.length + 1)
    simp only [List.length_append, List.length_cons, String.length_toList]
    omega
  obtain ⟨w, hw, hmore⟩ := h.of_cut
  have hw : first.toList = w ++ u.rest := hw
  have hcut : Cut u.rest (u.rest ++ '\n' :: second.toList) := by
    have hbreak : Cut [] ('\n' :: second.toList) := .here (by rintro c ⟨⟩; decide)
    simpa using hbreak.append u.rest
  have hrun := hmore length _ hcut
  rw [← List.append_assoc, ← hw] at hrun
  have hrest : (u.rest ++ '\n' :: second.toList).length ≤ length := by
    rw [← hlength]
    exact hrun.length_le
  have hsecond : (Scanner.mk length second.toList).tokensWithin (length + 1) =
      (Scanner.mk length second.toList).tokensWithin (second.toList.length + 1) :=
    tokensWithin_eq (Nat.lt_succ_of_le (Nat.le_add_right _ _)) (Nat.lt_succ_self _)
  calc tokens (first ++ "\n" ++ second)
    _ = (Scanner.mk length (first.toList ++ '\n' :: second.toList)).tokensWithin (length + 1) := by
        rw [tokens, Scanner.ofText, htext, hlength]
    _ = ((Scanner.mk length (u.rest ++ '\n' :: second.toList)).tokensWithin (length + 1)).map
          (us ++ ·) :=
        hrun.tokensWithin_eq (Nat.lt_succ_of_le hlength.le) (Nat.lt_succ_of_le hrest)
    _ = ((Scanner.mk length second.toList).tokensWithin (second.toList.length + 1)).map (us ++ ·) := by
        rw [tokensWithin_congr (hu _), hsecond]
    _ = ((tokens second).mapError (Error.shift (first.length + 1))).map (us ++ ·) := by
        rw [tokensWithin_shift _ (Nat.le_refl second.toList.length)]
        rfl

/-- **Texts on lines of their own.** When the first text has tokens and ends in no open block comment,
the two texts with a line break between them have the tokens of the first text and then those of the
second one. If the second text has none they fail with its error, farther on by the first text and the
line break. -/
theorem tokens_of_lines {first second : String} {ts : List Token} (h : tokens first = .ok ts)
    (ho : ¬ EndsInComment first) :
    (∀ us, tokens second = .ok us → tokens (first ++ "\n" ++ second) = .ok (ts.dropLast ++ us)) ∧
    ∀ e, tokens second = .error e →
      tokens (first ++ "\n" ++ second) = .error (e.shift (first.length + 1)) := by
  obtain ⟨us, u, hus, hu, rfl⟩ := tokens_eq_ok_iff.mp h
  have hgap : ∀ t, skipGap (u.rest ++ '\n' :: t) = skipGap t :=
    (afterGap_break hu).resolve_right fun hopen => ho ⟨us, u, hus, hopen⟩
  rw [tokens_break hus hgap, List.dropLast_concat]
  refine ⟨fun us' h' => ?_, fun e h' => ?_⟩
  · rw [h']
    rfl
  · rw [h']
    rfl

/-- A line comment with a mark of a block comment ends the first text; the second one has a quote that
is not closed, or none. -/
theorem tokens_of_lines_of_query :
    let first := "SELECT 'it''s', x -- */"
    let ts : List Token := [.keyword .SELECT, .text "it's", .mark .comma, .identifier "x"]
    tokens first = .ok (ts ++ [.endOfInput]) ∧ ¬ EndsInComment first ∧
      tokens (first ++ "\n" ++ "FROM y") =
        .ok (ts ++ [.keyword .FROM, .identifier "y", .endOfInput]) ∧
      tokens (first ++ "\n" ++ "FROM 'y") = .error (.unterminatedString 29) := by
  intro first ts
  have hfirst : tokens first = .ok (ts ++ [.endOfInput]) := by cbv
  have hopen : ¬ EndsInComment first := not_endsInComment (by decide)
  have hsecond : tokens "FROM y" = .ok [.keyword .FROM, .identifier "y", .endOfInput] := by cbv
  have herror : tokens "FROM 'y" = .error (.unterminatedString 5) := by cbv
  have hshift : (Error.unterminatedString 5).shift (first.length + 1) = .unterminatedString 29 := by
    cbv
  rw [← hshift]
  exact ⟨hfirst, hopen, (tokens_of_lines hfirst hopen).1 _ hsecond,
    (tokens_of_lines hfirst hopen).2 _ herror⟩

end Sql

end PullSql
