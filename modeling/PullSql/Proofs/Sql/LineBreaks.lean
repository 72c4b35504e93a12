import PullSql.Proofs.Sql.Lexemes

/-!
# Line breaks in SQL text

A text is collapsed by putting a single line break in the place of each run of blanks that has a line
break in it (`collapse`). That changes what stands inside quotes and nothing else.

1. Each loop of the scanner goes through the collapsed text as through the text itself: gaps
   (`afterGap_collapse`), quotes (`PassesBlanks.collapse`), numerals (`numeralRun_collapse`) and words
   (`takeWhile_isWordChar_collapse`). Hence so does one step of the scanner (`simulates_collapse`).
2. The tokens of the collapsed text are those of the text, the texts and names in them collapsed
   (`tokens_collapse`). They are the same tokens when no text or name has a line break next to a blank
   (`Token.collapse_eq_self`).
-/

namespace PullSql.Sql

open Spelling Text

/-! ## Collapsed texts -/

/-- A character in front of a collapsed text. -/
def collapseCons (c : Char) (s : List Char) : List Char :=
  if c = '\n' then '\n' :: s.dropWhile isBlank
  else if isBlank c && s.head? = some '\n' then s
  else c :: s

/-- A text with a single line break for each run of blanks that has one in it. -/
def collapse (s : List Char) : List Char := s.foldr collapseCons []

variable {c d : Char} {s : List Char}

theorem collapse_cons (c : Char) (s : List Char) :
    collapse (c :: s) = collapseCons c (collapse s) := rfl

theorem collapse_cons_of_not_blank (hc : isBlank c = false) (s : List Char) :
    collapse (c :: s) = c :: collapse s := by
  have hn : c ≠ '\n' := by
    rintro rfl
    exact absurd hc (by decide)
  rw [collapse_cons, collapseCons, if_neg hn, if_neg (by simp [hc])]

/-- A blank becomes a line break that takes the blanks behind it, or is taken by the line break behind
it, or stays. -/
theorem collapse_cons_of_blank (hc : isBlank c = true) (s : List Char) :
    (c = '\n' ∧ collapse (c :: s) = '\n' :: (collapse s).dropWhile isBlank) ∨
    (c ≠ '\n' ∧ (collapse s).head? = some '\n' ∧ collapse (c :: s) = collapse s) ∨
    (c ≠ '\n' ∧ (collapse s).head? ≠ some '\n' ∧ collapse (c :: s) = c :: collapse s) := by
  rw [collapse_cons]
  unfold collapseCons
  by_cases hn : c = '\n'
  · exact .inl ⟨hn, by rw [if_pos hn]⟩
  by_cases hs : (collapse s).head? = some '\n'
  · exact .inr (.inl ⟨hn, hs, by rw [if_neg hn, if_pos (by simp [hc, hs])]⟩)
  · exact .inr (.inr ⟨hn, hs, by rw [if_neg hn, if_neg (by simp [hs])]⟩)

/-- In front of a blank there is a blank in the collapsed text. -/
theorem stops_collapse_cons (hc : isBlank c = true) (s : List Char) : Stops (collapse (c :: s)) := by
  intro d hd
  rcases collapse_cons_of_blank hc s with ⟨-, h⟩ | ⟨-, hs, h⟩ | ⟨-, -, h⟩
  · rw [h] at hd
    cases hd
    decide
  · rw [h, hs] at hd
    cases hd
    decide
  · rw [h] at hd
    cases hd
    exact hc

/-- A text and its collapsed form begin with the same visible character. -/
theorem head?_collapse (hd : isBlank d = false) : (collapse s).head? = some d ↔ s.head? = some d := by
  cases s with
  | nil => rfl
  | cons c s =>
    by_cases hc : isBlank c = true
    · have h1 : (collapse (c :: s)).head? ≠ some d := (stops_collapse_cons hc s).head_ne hd
      have h2 : (c :: s).head? ≠ some d := by
        intro h
        cases h
        rw [hc] at hd
        cases hd
      exact iff_of_false h1 h2
    · rw [collapse_cons_of_not_blank (by simpa using hc)]
      rfl

theorem collapse_ne_cons (hd : isBlank d = false) (h : ∀ t, s ≠ d :: t) :
    ∀ t, collapse s ≠ d :: t := by
  intro t ht
  have hs : s.head? = some d := (head?_collapse hd).mp (by rw [ht]; rfl)
  obtain ⟨t', ht'⟩ := List.head?_eq_some_iff.mp hs
  exact h t' ht'

/-- Without a line break there is nothing to collapse. -/
theorem collapse_of_no_break (h : '\n' ∉ s) : collapse s = s := by
  induction s with
  | nil => rfl
  | cons c s ih =>
    rw [List.mem_cons, not_or] at h
    have hs : s.head? ≠ some '\n' := fun hs => h.2 (List.mem_of_mem_head? hs)
    rw [collapse_cons, ih h.2, collapseCons, if_neg (Ne.symm h.1), if_neg (by simp [hs])]

theorem dropWhile_collapse (s : List Char) :
    (collapse s).dropWhile isBlank = collapse (s.dropWhile isBlank) := by
  induction s with
  | nil => rfl
  | cons c s ih =>
    by_cases hc : isBlank c = true
    · rw [List.dropWhile_cons_of_pos hc, ← ih]
      rcases collapse_cons_of_blank hc s with ⟨-, h⟩ | ⟨-, -, h⟩ | ⟨-, -, h⟩
      · rw [h, List.dropWhile_cons_of_pos (by decide), List.dropWhile_idempotent]
      · rw [h]
      · rw [h, List.dropWhile_cons_of_pos hc]
    · rw [List.dropWhile_cons_of_neg hc, collapse_cons_of_not_blank (by simpa using hc),
        List.dropWhile_cons_of_neg hc]

/-- Nothing is collapsed where no line break stands next to a blank. -/
theorem collapse_eq_self
    (h : s.IsChain fun c d => isBlank c = true → isBlank d = true → c ≠ '\n' ∧ d ≠ '\n') :
    collapse s = s := by
  induction s with
  | nil => rfl
  | cons c s ih =>
    rw [collapse_cons, ih h.tail]
    cases s with
    | nil => by_cases hc : c = '\n' <;> simp [collapseCons, hc]
    | cons d s =>
      have hcd := (List.isChain_cons_cons.mp h).1
      by_cases hc : c = '\n'
      · subst hc
        have hd : ¬ isBlank d = true := fun hd => (hcd (by decide) hd).1 rfl
        rw [collapseCons, if_pos rfl, List.dropWhile_cons_of_neg hd]
      · have hd : ¬ (isBlank c = true ∧ d = '\n') := by
          rintro ⟨hb, rfl⟩
          exact (hcd hb (by decide)).2 rfl
        rw [collapseCons, if_neg hc, if_neg (by simpa using hd)]

/-! ## Gaps -/

theorem afterGap_outside_dropWhile (s : List Char) :
    afterGap .outside (s.dropWhile isBlank) = afterGap .outside s := by
  induction s with
  | nil => rfl
  | cons c s ih =>
    by_cases hc : isBlank c = true
    · rw [List.dropWhile_cons_of_pos hc, ih, afterGap_blank hc]
    · rw [List.dropWhile_cons_of_neg hc]

theorem afterGap_blockComment_cons (hc : c ≠ '*') (s : List Char) :
    afterGap .blockComment (c :: s) = afterGap .blockComment s := by
  rw [afterGap]
  exact fun _ h => absurd h hc

theorem ne_asterisk_of_blank (hc : isBlank c = true) : c ≠ '*' := by
  rintro rfl
  exact absurd hc (by decide)

theorem afterGap_blockComment_dropWhile (s : List Char) :
    afterGap .blockComment (s.dropWhile isBlank) = afterGap .blockComment s := by
  induction s with
  | nil => rfl
  | cons c s ih =>
    by_cases hc : isBlank c = true
    · rw [List.dropWhile_cons_of_pos hc, ih, afterGap_blockComment_cons (ne_asterisk_of_blank hc)]
    · rw [List.dropWhile_cons_of_neg hc]

theorem afterGap_collapse (part : GapPart) (s : List Char) :
    afterGap part (collapse s) = collapse (afterGap part s) := by
  fun_induction afterGap part s with
  | case1 part => cases part <;> rfl
  | case2 rest ih =>
    rw [collapse_cons_of_not_blank (by decide), collapse_cons_of_not_blank (by decide), afterGap, ih]
  | case3 rest ih =>
    rw [collapse_cons_of_not_blank (by decide), collapse_cons_of_not_blank (by decide), afterGap, ih]
  | case4 c rest h1 h2 hc ih =>
    rcases collapse_cons_of_blank hc rest with ⟨-, hs⟩ | ⟨-, -, hs⟩ | ⟨-, -, hs⟩
    · rw [hs, afterGap_blank (by decide), afterGap_outside_dropWhile, ih]
    · rw [hs, ih]
    · rw [hs, afterGap_blank hc, ih]
  | case5 c rest h1 h2 hc =>
    rw [collapse_cons_of_not_blank (by simpa using hc), afterGap, if_neg hc]
    · exact fun t e => collapse_ne_cons (by decide) (fun t => h1 t e) t
    · exact fun t e => collapse_ne_cons (by decide) (fun t => h2 t e) t
  | case6 c rest ih =>
    -- the line break that ends a comment is kept, whatever else of its run is lost
    by_cases hc : isBlank c = true
    · rcases collapse_cons_of_blank hc rest with ⟨rfl, hs⟩ | ⟨hn, -, hs⟩ | ⟨-, -, hs⟩
      · rw [if_pos rfl] at ih
        rw [hs, afterGap, if_pos rfl, afterGap_outside_dropWhile, ih]
      · rw [if_neg hn] at ih ⊢
        rw [hs, ih]
      · rw [hs, afterGap, ih]
    · rw [collapse_cons_of_not_blank (by simpa using hc), afterGap, ih]
  | case7 rest ih =>
    rw [collapse_cons_of_not_blank (by decide), collapse_cons_of_not_blank (by decide), afterGap, ih]
  | case8 c rest h ih =>
    by_cases hc : isBlank c = true
    · rcases collapse_cons_of_blank hc rest with ⟨-, hs⟩ | ⟨-, -, hs⟩ | ⟨-, -, hs⟩
      · rw [hs, afterGap_blockComment_cons (by decide), afterGap_blockComment_dropWhile, ih]
      · rw [hs, ih]
      · rw [hs, afterGap_blockComment_cons (ne_asterisk_of_blank hc), ih]
    · rw [collapse_cons_of_not_blank (by simpa using hc), afterGap, ih]
      exact fun t e => collapse_ne_cons (by decide) (fun t => h t e) t

/-! ## Quotes -/

/-- A reader behind an opening quote that takes blanks as they are. -/
structure PassesBlanks (close : List Char → Option (List Char × List Char)) : Prop where
  cons : ∀ {c}, isBlank c = true → ∀ s, close (c :: s) = (close s).map fun (v, r) => (c :: v, r)
  head : ∀ {c s v r}, isBlank c = true → close s = some (c :: v, r) → s.head? = some c

section PassesBlanks

variable {close : List Char → Option (List Char × List Char)}

/-- Text that does not begin with a blank is taken without a blank in front. -/
theorem PassesBlanks.map_dropWhile (h : PassesBlanks close)
    (hs : ∀ c ∈ s.head?, isBlank c = false) :
    ((close s).map fun (v, r) => (v.dropWhile isBlank, r)) = close s := by
  rcases hclose : close s with _ | ⟨v, r⟩
  · rfl
  cases v with
  | nil => rfl
  | cons c v =>
    have hc : ¬ isBlank c = true := fun hc => by
      have hhead := hs c (h.head hc hclose)
      rw [hc] at hhead
      cases hhead
    show some ((c :: v).dropWhile isBlank, r) = _
    rw [List.dropWhile_cons_of_neg hc]

theorem PassesBlanks.dropWhile (h : PassesBlanks close) (s : List Char) :
    close (s.dropWhile isBlank) = (close s).map fun (v, r) => (v.dropWhile isBlank, r) := by
  induction s with
  | nil => exact (h.map_dropWhile (by simp)).symm
  | cons c s ih =>
    by_cases hc : isBlank c = true
    · rw [List.dropWhile_cons_of_pos hc, ih, h.cons hc, Option.map_map]
      refine Option.map_congr fun p _ => ?_
      simp only [Function.comp_apply, List.dropWhile_cons_of_pos hc]
    · rw [List.dropWhile_cons_of_neg hc]
      exact (h.map_dropWhile (by simpa using hc)).symm

/-- What is taken begins with the same blank as the text. -/
theorem PassesBlanks.head?_iff (h : PassesBlanks close) {v r : List Char} (hc : isBlank c = true)
    (hclose : close s = some (v, r)) : s.head? = some c ↔ v.head? = some c := by
  constructor
  · intro hs
    obtain ⟨s', rfl⟩ := List.head?_eq_some_iff.mp hs
    rw [h.cons hc] at hclose
    obtain ⟨p, -, hv⟩ := Option.map_eq_some_iff.mp hclose
    cases hv
    rfl
  · intro hv
    obtain ⟨v', rfl⟩ := List.head?_eq_some_iff.mp hv
    exact h.head hc hclose

/-- Such a reader takes the collapsed text of what it would take. -/
def Collapses (close : List Char → Option (List Char × List Char)) (s : List Char) : Prop :=
  close (collapse s) = (close s).map fun (v, r) => (collapse v, collapse r)

theorem PassesBlanks.collapses_cons (h : PassesBlanks close) (hc : isBlank c = true)
    (ih : Collapses close s) : Collapses close (c :: s) := by
  have hbreak : isBlank '
' = true := by decide
  unfold Collapses at ih ⊢
  rw [h.cons hc]
  rcases hclose : close s with _ | ⟨v, r⟩
  · rw [hclose, Option.map_none] at ih
    rcases collapse_cons_of_blank hc s with ⟨-, hs⟩ | ⟨-, -, hs⟩ | ⟨-, -, hs⟩
    · rw [hs, h.cons hbreak, h.dropWhile, ih]
      rfl
    · rw [hs, ih]
      rfl
    · rw [hs, h.cons hc, ih]
      rfl
  · rw [hclose, Option.map_some] at ih
    have hhead := h.head?_iff hbreak ih
    -- the blank in front of the text and the one in front of what is taken meet the same fate
    rcases collapse_cons_of_blank hc s with ⟨rfl, hs⟩ | ⟨hn, hd, hs⟩ | ⟨hn, hd, hs⟩
    · rw [hs, h.cons hbreak, h.dropWhile, ih]
      rfl
    · rw [hs, ih]
      show _ = some (collapse (c :: v), _)
      rw [collapse_cons, collapseCons, if_neg hn, if_pos (by simp [hc, hhead.mp hd])]
    · rw [hs, h.cons hc, ih]
      show _ = some (collapse (c :: v), _)
      rw [collapse_cons, collapseCons, if_neg hn, if_neg (by simpa [hc] using fun hv => hd (hhead.mpr hv))]
      rfl

end PassesBlanks

theorem closeText_cons_of_blank (hc : isBlank c = true) (s : List Char) :
    closeText (c :: s) = (closeText s).map fun (v, r) => (c :: v, r) := by
  have hquote : c ≠ '\'' := by
    rintro rfl
    exact absurd hc (by decide)
  have hslash : c ≠ '\\' := by
    rintro rfl
    exact absurd hc (by decide)
  rw [closeText]
  · exact fun _ h => absurd h hslash
  · exact fun _ h => absurd h hquote
  · exact hquote

theorem passesBlanks_closeText : PassesBlanks closeText where
  cons := closeText_cons_of_blank
  head := by
    intro c s v r hc h
    have hquote : isBlank '\'' = false := by decide
    fun_induction closeText s generalizing v with
    | case1 | case4 => cases h
    | case2 rest | case3 rest =>
      obtain ⟨p, -, hv⟩ := Option.map_eq_some_iff.mp h
      cases hv
      rw [hc] at hquote
      cases hquote
    | case5 d rest =>
      obtain ⟨p, -, hv⟩ := Option.map_eq_some_iff.mp h
      cases hv
      rfl

theorem passesBlanks_closeIdentifier {quote : Char} (hq : isBlank quote = false) :
    PassesBlanks (closeIdentifier quote) where
  cons := by
    intro c hc s
    refine closeIdentifier_cons_of_ne ?_ s
    rintro rfl
    rw [hc] at hq
    cases hq
  head := by
    intro c s v r hc h
    fun_induction closeIdentifier quote s generalizing v with
    | case1 | case2 | case3 | case5 => cases h
    | case4 rest =>
      obtain ⟨p, -, hv⟩ := Option.map_eq_some_iff.mp h
      cases hv
      rw [hc] at hq
      cases hq
    | case6 d e rest hd =>
      obtain ⟨p, -, hv⟩ := Option.map_eq_some_iff.mp h
      cases hv
      rfl

/-- A visible character may be taken before or after what is behind it is collapsed. -/
theorem map_collapse_cons (hc : isBlank c = false) (o : Option (List Char × List Char)) :
    ((o.map fun (v, r) => (c :: v, r)).map fun (v, r) => (collapse v, collapse r)) =
      (o.map fun (v, r) => (collapse v, collapse r)).map fun (v, r) => (c :: v, r) := by
  rw [Option.map_map, Option.map_map]
  refine Option.map_congr fun p _ => ?_
  simp only [Function.comp_apply, collapse_cons_of_not_blank hc]

theorem collapses_closeText (s : List Char) : Collapses closeText s := by
  have hquote : isBlank '\'' = false := by decide
  have hslash : isBlank '\\' = false := by decide
  unfold Collapses
  fun_induction closeText s with
  | case1 => rfl
  | case2 rest ih =>
    rw [collapse_cons_of_not_blank hslash, collapse_cons_of_not_blank hquote, map_collapse_cons hquote,
      ← ih, closeText]
  | case3 rest ih =>
    rw [collapse_cons_of_not_blank hquote, collapse_cons_of_not_blank hquote, map_collapse_cons hquote,
      ← ih, closeText]
  | case4 rest h =>
    rw [collapse_cons_of_not_blank hquote, closeText]
    · rfl
    · exact collapse_ne_cons hquote h
  | case5 c rest h1 h2 hne ih =>
    by_cases hc : isBlank c = true
    · rw [← closeText_cons_of_blank hc]
      exact passesBlanks_closeText.collapses_cons hc ih
    · have hc : isBlank c = false := by simpa using hc
      rw [collapse_cons_of_not_blank hc, map_collapse_cons hc, ← ih, closeText]
      · exact fun t e => collapse_ne_cons hquote (fun t => h1 t e) t
      · exact fun t e => collapse_ne_cons hquote (fun t => h2 t e) t
      · exact hne

theorem closeIdentifier_quote {quote : Char} (h : s.head? ≠ some quote) :
    closeIdentifier quote (quote :: s) = some ([], s) := by
  cases s with
  | nil => rw [closeIdentifier, if_pos rfl]
  | cons d s =>
    have hd : d ≠ quote := fun e => h (by rw [e]; rfl)
    rw [closeIdentifier, if_pos rfl, if_neg hd]

theorem collapses_closeIdentifier {quote : Char} (hq : isBlank quote = false) (s : List Char) :
    Collapses (closeIdentifier quote) s := by
  have hstep : ∀ {c s}, c ≠ quote → Collapses (closeIdentifier quote) s →
      Collapses (closeIdentifier quote) (c :: s) := by
    intro c s hne ih
    by_cases hc : isBlank c = true
    · exact (passesBlanks_closeIdentifier hq).collapses_cons hc ih
    · have hc : isBlank c = false := by simpa using hc
      unfold Collapses at ih ⊢
      rw [collapse_cons_of_not_blank hc, closeIdentifier_cons_of_ne hne, closeIdentifier_cons_of_ne hne,
        map_collapse_cons hc, ih]
  have hclose : ∀ {s : List Char}, s.head? ≠ some quote →
      Collapses (closeIdentifier quote) (quote :: s) := by
    intro s hs
    have hs' : (collapse s).head? ≠ some quote := mt (head?_collapse hq).mp hs
    unfold Collapses
    rw [collapse_cons_of_not_blank hq, closeIdentifier_quote hs, closeIdentifier_quote hs']
    rfl
  induction s using closeIdentifier.induct quote with
  | case1 => rfl
  | case2 => exact hclose (by simp)
  | case3 c hc => exact hstep hc rfl
  | case4 rest ih =>
    unfold Collapses at ih ⊢
    rw [collapse_cons_of_not_blank hq, collapse_cons_of_not_blank hq, closeIdentifier, closeIdentifier,
      if_pos rfl, if_pos rfl, if_pos rfl, if_pos rfl, map_collapse_cons hq, ih]
  | case5 d rest hd => exact hclose (by simpa using hd)
  | case6 c d rest hc ih => exact hstep hc ih

/-! ## Numerals and words -/

theorem any_isDigit_collapse (s : List Char) :
    (collapse s).head?.any Char.isDigit = s.head?.any Char.isDigit := by
  rw [Bool.eq_iff_iff, Option.any_eq_true, Option.any_eq_true]
  refine exists_congr fun d => and_congr_left fun hd => head?_collapse ?_
  exact isBlank_of_isAlphanum (by simp [Char.isAlphanum, hd])

theorem numeralRun_collapse (inFraction : Bool) (s : List Char) :
    numeralRun inFraction (collapse s) =
      ((numeralRun inFraction s).1, collapse (numeralRun inFraction s).2) := by
  have hexponent : ∀ {c}, (decide (c = 'e') || decide (c = 'E')) = true → isBlank c = false := by
    intro c h
    rw [Bool.or_eq_true, decide_eq_true_eq, decide_eq_true_eq] at h
    rcases h with rfl | rfl <;> decide
  fun_induction numeralRun inFraction s with
  | case1 => rfl
  | case2 inFraction c rest hc run r hrun ih =>
    have hb := isBlank_of_isAlphanum (c := c) (by simp [Char.isAlphanum, hc])
    rw [collapse_cons_of_not_blank hb, numeralRun_cons_of_isDigit hc, ih, hrun]
  | case3 inFraction c rest hc hpoint run r hrun ih =>
    have hb : isBlank c = false := by
      simp only [Bool.and_eq_true, decide_eq_true_eq] at hpoint
      rw [hpoint.1.1]
      decide
    rw [collapse_cons_of_not_blank hb]
    unfold numeralRun
    rw [if_neg hc, any_isDigit_collapse, if_pos hpoint, ih, hrun]
  | case4 inFraction c hc he rest run r hrun _ ih =>
    rw [collapse_cons_of_not_blank (hexponent he), collapse_cons_of_not_blank (by decide)]
    unfold numeralRun
    rw [if_neg hc, if_neg (by simp), if_pos he]
    show (let (run, rest) := numeralRun true (collapse rest); (c :: '+' :: run, rest)) = _
    rw [ih, hrun]
  | case5 inFraction c hc he rest run r hrun _ ih =>
    rw [collapse_cons_of_not_blank (hexponent he), collapse_cons_of_not_blank (by decide)]
    unfold numeralRun
    rw [if_neg hc, if_neg (by simp), if_pos he]
    show (let (run, rest) := numeralRun true (collapse rest); (c :: '-' :: run, rest)) = _
    rw [ih, hrun]
  | case6 inFraction c hc he rest hplus hminus run r hrun hpoint ih =>
    rw [collapse_cons_of_not_blank (hexponent he)]
    unfold numeralRun
    rw [if_neg hc, any_isDigit_collapse, if_neg hpoint, if_pos he]
    split
    · rename_i h
      exact absurd h (collapse_ne_cons (by decide) hplus _)
    · rename_i h
      exact absurd h (collapse_ne_cons (by decide) hminus _)
    · rw [ih, hrun]
  | case7 inFraction c rest hc hpoint he =>
    by_cases hb : isBlank c = true
    · exact numeralRun_of_stops (stops_collapse_cons hb rest) inFraction
    · rw [collapse_cons_of_not_blank (by simpa using hb)]
      unfold numeralRun
      rw [if_neg hc, any_isDigit_collapse, if_neg hpoint, if_neg he]

theorem takeWhile_isWordChar_collapse (s : List Char) :
    (collapse s).takeWhile isWordChar = s.takeWhile isWordChar ∧
      (collapse s).dropWhile isWordChar = collapse (s.dropWhile isWordChar) := by
  induction s with
  | nil => exact ⟨rfl, rfl⟩
  | cons c s ih =>
    by_cases hc : isWordChar c = true
    · have hb : isBlank c = false := by
        by_contra hb
        rw [isWordChar_eq_false (by simpa using hb)] at hc
        cases hc
      rw [collapse_cons_of_not_blank hb, List.takeWhile_cons_of_pos hc, List.takeWhile_cons_of_pos hc,
        List.dropWhile_cons_of_pos hc, List.dropWhile_cons_of_pos hc, ih.1, ih.2]
      exact ⟨rfl, rfl⟩
    rw [List.takeWhile_cons_of_neg hc, List.dropWhile_cons_of_neg hc]
    by_cases hb : isBlank c = true
    · exact takeWhile_isWordChar (List.forall_mem_nil _) (stops_collapse_cons hb s)
    · rw [collapse_cons_of_not_blank (by simpa using hb), List.takeWhile_cons_of_neg hc,
        List.dropWhile_cons_of_neg hc]
      exact ⟨rfl, rfl⟩

/-! ## Tokens -/

/-- A token with its text or its name collapsed. -/
def Token.collapse : Token → Token
  | .text s => .text (String.ofList (Sql.collapse s.toList))
  | .identifier name => .identifier (String.ofList (Sql.collapse name.toList))
  | t => t

/-- The texts and names that tokens hold. -/
def Token.content : Token → List Char
  | .text s => s.toList
  | .identifier name => name.toList
  | _ => []

theorem Token.collapse_eq_self {t : Token} (h : t.content.IsChain fun c d =>
    isBlank c = true → isBlank d = true → c ≠ '\n' ∧ d ≠ '\n') : t.collapse = t := by
  cases t with
  | text s | identifier s =>
    have hs : Sql.collapse s.toList = s.toList := Sql.collapse_eq_self h
    rw [Token.collapse, hs, String.ofList_toList]
  | _ => rfl

theorem Token.collapse_eq_end_iff {t : Token} : t.collapse = .endOfInput ↔ t = .endOfInput := by
  cases t <;> simp [Token.collapse]

/-- A bare word has no blanks. -/
theorem collapse_wordToken {w : List Char} (h : ∀ c ∈ w, isWordChar c = true) :
    (wordToken (String.ofList w)).collapse = wordToken (String.ofList w) := by
  have hbreak : '\n' ∉ w := fun hn => absurd (h _ hn) (by decide)
  unfold wordToken
  split
  · rfl
  · rw [Token.collapse, String.toList_ofList, collapse_of_no_break hbreak]

theorem collapse_numeralToken {run : List Char} {t : Token} (h : numeralToken? run = some t) :
    t.collapse = t := by
  unfold numeralToken? at h
  split_ifs at h
  · dsimp only at h
    split at h <;> cases h <;> rfl
  · obtain ⟨_, -, rfl⟩ := Option.map_eq_some_iff.mp h
    rfl

/-- A token does not begin with a blank. -/
theorem Lexeme.isBlank_eq_false {rest r : List Char} {t : Token} (h : Lexeme c rest t r) :
    isBlank c = false := by
  cases h with
  | @mark m hm =>
    have hc : m.char = c := eq_of_beq (List.find?_some (p := fun m : Mark => m.char == c) hm)
    rw [← hc]
    cases m <;> decide
  | text hc =>
    rw [hc]
    decide
  | identifier hc => rcases identifierQuote_cases hc with rfl | rfl <;> decide
  | numeral hc => exact isBlank_of_isAlphanum (by simp [Char.isAlphanum, hc])
  | word hc => exact isBlank_of_isAlphanum (by simp [Char.isAlphanum, hc])

theorem Lexeme.collapse {rest r : List Char} {t : Token} (h : Lexeme c rest t r) :
    Lexeme c (Sql.collapse rest) t.collapse (Sql.collapse r) := by
  have hb := h.isBlank_eq_false
  cases h with
  | mark hm => exact .mark hm
  | text hc hclose =>
    rw [Token.collapse, String.toList_ofList]
    exact .text hc (by rw [collapses_closeText, hclose]; rfl)
  | identifier hc hclose =>
    rw [Token.collapse, String.toList_ofList]
    exact .identifier hc (by rw [collapses_closeIdentifier hb, hclose]; rfl)
  | numeral hc hrun ht =>
    have hrun' := numeralRun_collapse false (c :: rest)
    rw [collapse_cons_of_not_blank hb, hrun] at hrun'
    rw [collapse_numeralToken ht]
    exact .numeral hc hrun' ht
  | word hc =>
    obtain ⟨htake, hdrop⟩ := takeWhile_isWordChar_collapse (c :: rest)
    rw [collapse_cons_of_not_blank hb] at htake hdrop
    rw [collapse_wordToken fun d hd => List.mem_takeWhile_imp hd, ← htake, ← hdrop]
    exact .word hc

/-- One step of the scanner on a collapsed text. -/
theorem simulates_collapse : Simulates Token.collapse fun s s' => s' = Sql.collapse s := by
  rintro length length' s _ r t rfl h
  have hgap := afterGap_collapse .outside s
  refine ⟨Sql.collapse r, ?_, rfl⟩
  rcases next_eq_ok_iff.mp h with ⟨hs, rfl, hr⟩ | ⟨c, rest, r', hs, hl, hr⟩
  · cases hr
    have hs : afterGap .outside s = [] := hs
    rw [hs] at hgap
    exact next_eq_ok_iff.mpr (.inl ⟨hgap, rfl, rfl⟩)
  · cases hr
    have hs : afterGap .outside s = c :: rest := hs
    rw [hs, collapse_cons_of_not_blank hl.isBlank_eq_false] at hgap
    exact next_eq_ok_iff.mpr (.inr ⟨c, _, _, hgap, hl.collapse, rfl⟩)

/-- Collapsing a text collapses the texts and names of its tokens and nothing else. -/
theorem tokens_collapse {sql : String} {ts : List Token} (h : tokens sql = .ok ts) :
    tokens (String.ofList (collapse sql.toList)) = .ok (ts.map Token.collapse) :=
  tokens_of_simulates simulates_collapse (fun _ => Token.collapse_eq_end_iff) String.toList_ofList h

end PullSql.Sql
