import PullSql.Proofs.Sql.Runs
import PullSql.Proofs.Value.Arithmetic

/-!
# Numerals

Which characters the scanner takes for a numeral, and which of them make one.

1. A run goes on with digits, points, exponent marks and signs, each where it may stand (`Continues`),
   up to the first character that may not stand there (`RunOf`). Exactly this run is taken
   (`runOf_iff`).
2. A numeral is digits, a fraction and an exponent (`NumeralForm`). A run that starts with a digit is
   digits and a fraction up to its first exponent mark anyway (`shape_of_numeralRun`), so its form depends
   on what follows this mark (`exponentOf?_eq_some_iff`, `decimal_ofRun?_iff`).
3. Digits alone are a numeral however many there are (`numeralToken?_of_digits`).

Main statement: `numeral_read_by_form`.
-/

namespace PullSql.Sql

open Spelling

/-! ## Runs -/

/-- The marks of an exponent. -/
def IsExponentMark (c : Char) : Prop := c = 'e' ∨ c = 'E'

theorem isExponentMark_iff {c : Char} :
    IsExponentMark c ↔ (decide (c = 'e') || decide (c = 'E')) = true := by
  simp [IsExponentMark]

/-- Behind `before`, a run goes on with a character that has the last argument behind it. A point needs
a digit behind it and neither a point nor an exponent before it; a sign belongs to an exponent mark. -/
inductive Continues (before : List Char) : Char → List Char → Prop
  | digit {c : Char} {behind : List Char} (hc : c.isDigit = true) : Continues before c behind
  | point {d : Char} {behind : List Char} (hd : d.isDigit = true)
      (hfirst : ∀ b ∈ before, b ≠ '.' ∧ ¬ IsExponentMark b) : Continues before '.' (d :: behind)
  | exponent {c : Char} {behind : List Char} (hc : IsExponentMark c) : Continues before c behind
  | sign {c : Char} {behind : List Char} (hc : c = '+' ∨ c = '-')
      (hmark : ∃ m ∈ before.getLast?, IsExponentMark m) : Continues before c behind

/-- Behind `before`, the run at the front of a text and what is left of the text. -/
inductive RunOf : List Char → List Char → List Char → List Char → Prop
  | stop {before s : List Char} (h : ∀ c behind, s = c :: behind → ¬ Continues before c behind) :
      RunOf before s [] s
  | more {before behind run r : List Char} {c : Char} (h : Continues before c behind)
      (hrun : RunOf (before ++ [c]) behind run r) : RunOf before (c :: behind) (c :: run) r

section Runs

variable {before s run run' r r' : List Char} {b c d : Char} {inFraction : Bool}

/-- What the loop asks of a point. -/
theorem point_iff : (decide (c = '.') && !inFraction && s.head?.any Char.isDigit) = true ↔
    c = '.' ∧ inFraction = false ∧ ∃ d behind, s = d :: behind ∧ d.isDigit = true := by
  cases s <;> simp [and_assoc]

theorem RunOf.unique (h : RunOf before s run r) (h' : RunOf before s run' r') :
    run' = run ∧ r' = r := by
  induction h generalizing run' r' with
  | stop h =>
    cases h' with
    | stop => exact ⟨rfl, rfl⟩
    | more h' => exact absurd h' (h _ _ rfl)
  | more h _ ih =>
    cases h' with
    | stop h' => exact absurd h (h' _ _ rfl)
    | more _ hrun' =>
      obtain ⟨rfl, rfl⟩ := ih hrun'
      exact ⟨rfl, rfl⟩

/-- What the loop knows of the run so far: its mode says whether a point or an exponent mark is in it,
and the sign behind an exponent mark has been taken along. -/
structure InMode (before : List Char) (inFraction : Bool) (s : List Char) : Prop where
  mode : inFraction = false ↔ ∀ b ∈ before, b ≠ '.' ∧ ¬ IsExponentMark b
  sign : (∃ m ∈ before.getLast?, IsExponentMark m) → ∀ c ∈ s.head?, c ≠ '+' ∧ c ≠ '-'

theorem inMode_nil (s : List Char) : InMode [] false s :=
  ⟨by simp, by simp⟩

theorem not_isExponentMark_of_isDigit (hc : c.isDigit = true) : ¬ IsExponentMark c := by
  rintro (rfl | rfl) <;> cases hc

theorem InMode.digit (h : InMode before inFraction (c :: s)) (hc : c.isDigit = true) :
    InMode (before ++ [c]) inFraction s := by
  have hmark := not_isExponentMark_of_isDigit hc
  have hpoint : c ≠ '.' := by rintro rfl; cases hc
  refine ⟨?_, by simp [hmark]⟩
  rw [h.mode]
  simp only [List.forall_mem_append, List.forall_mem_singleton]
  exact ⟨fun hb => ⟨hb, hpoint, hmark⟩, And.left⟩

/-- Behind a point or an exponent mark the mode stays on. -/
theorem inMode_of_mem (hb : b ∈ before) (hc : b = '.' ∨ IsExponentMark b)
    (hs : (∃ m ∈ before.getLast?, IsExponentMark m) → ∀ c ∈ s.head?, c ≠ '+' ∧ c ≠ '-') :
    InMode before true s := by
  refine ⟨iff_of_false (by decide) fun h => ?_, hs⟩
  obtain ⟨hpoint, hmark⟩ := h b hb
  exact hc.elim hpoint hmark

theorem not_isExponentMark_of_sign (hd : d = '+' ∨ d = '-') : ¬ IsExponentMark d := by
  rcases hd with rfl | rfl <;> simp [IsExponentMark]

/-- A sign is taken along with the exponent mark in front of it, and no second one. -/
theorem RunOf.signed (hc : IsExponentMark c) (hd : d = '+' ∨ d = '-')
    (h : InMode (before ++ [c] ++ [d]) true s → RunOf (before ++ [c] ++ [d]) s run r) :
    RunOf before (c :: d :: s) (c :: d :: run) r := by
  have hmode : InMode (before ++ [c] ++ [d]) true s := by
    refine inMode_of_mem (b := c) (by simp) (.inr hc) fun ⟨m, hm, hmark⟩ => ?_
    obtain rfl : d = m := by simpa using hm
    exact absurd hmark (not_isExponentMark_of_sign hd)
  exact .more (.exponent hc) (.more (.sign hd ⟨c, by simp, hc⟩) (h hmode))

theorem runOf_of_numeralRun (h : InMode before inFraction s)
    (hrun : numeralRun inFraction s = (run, r)) : RunOf before s run r := by
  fun_induction numeralRun inFraction s generalizing before run with
  | case1 =>
    cases hrun
    exact .stop fun c behind h => by cases h
  | case2 inFraction c rest hc run₁ r₁ hrun₁ ih =>
    cases hrun
    exact .more (.digit hc) (ih (h.digit hc) hrun₁)
  | case3 inFraction c rest hc hpoint run₁ r₁ hrun₁ ih =>
    cases hrun
    obtain ⟨rfl, hmode, d, behind, rfl, hdigit⟩ := point_iff.mp hpoint
    refine .more (.point hdigit (h.mode.mp hmode)) (ih (inMode_of_mem (by simp) (.inl rfl) ?_) hrun₁)
    simp [IsExponentMark]
  | case4 inFraction c hc he rest run₁ r₁ hrun₁ hpoint ih =>
    cases hrun
    exact .signed (isExponentMark_iff.mpr he) (.inl rfl) (ih · hrun₁)
  | case5 inFraction c hc he rest run₁ r₁ hrun₁ hpoint ih =>
    cases hrun
    exact .signed (isExponentMark_iff.mpr he) (.inr rfl) (ih · hrun₁)
  | case6 inFraction c hc he rest hplus hminus run₁ r₁ hrun₁ hpoint ih =>
    cases hrun
    have hmark : IsExponentMark c := isExponentMark_iff.mpr he
    refine .more (.exponent hmark) (ih (inMode_of_mem (by simp) (.inr hmark) fun _ d hd => ?_) hrun₁)
    obtain ⟨behind, rfl⟩ := List.head?_eq_some_iff.mp hd
    exact ⟨fun h => hplus behind (h ▸ rfl), fun h => hminus behind (h ▸ rfl)⟩
  | case7 inFraction c rest hc hpoint he =>
    cases hrun
    refine .stop fun c' behind hs hmore => ?_
    cases hs
    cases hmore with
    | digit hdigit => exact hc hdigit
    | point hd hfirst => exact hpoint (point_iff.mpr ⟨rfl, h.mode.mpr hfirst, _, _, rfl, hd⟩)
    | exponent hmark => exact he (isExponentMark_iff.mp hmark)
    | sign hsign hmark =>
      obtain ⟨hplus, hminus⟩ := h.sign hmark c rfl
      exact hsign.elim hplus hminus

/-- The loop takes exactly the run. -/
theorem runOf_iff : RunOf [] s run r ↔ numeralRun false s = (run, r) := by
  have hloop : RunOf [] s (numeralRun false s).1 (numeralRun false s).2 :=
    runOf_of_numeralRun (inMode_nil s) rfl
  constructor
  · intro h
    obtain ⟨hrun, hr⟩ := h.unique hloop
    exact Prod.ext hrun hr
  · intro h
    rwa [h] at hloop

end Runs

/-! ## Forms -/

/-- One or more digits. -/
def Digits (s : List Char) : Prop := s ≠ [] ∧ ∀ c ∈ s, c.isDigit = true

/-- What ends a numeral, with the exponent that it stands for. -/
inductive ExponentPart : List Char → Int → Prop
  | none : ExponentPart [] 0
  | plain {e : Char} {ds : List Char} (he : IsExponentMark e) (hd : Digits ds) :
      ExponentPart (e :: ds) (Nat.ofDigitChars 10 ds 0)
  | plus {e : Char} {ds : List Char} (he : IsExponentMark e) (hd : Digits ds) :
      ExponentPart (e :: '+' :: ds) (Nat.ofDigitChars 10 ds 0)
  | minus {e : Char} {ds : List Char} (he : IsExponentMark e) (hd : Digits ds) :
      ExponentPart (e :: '-' :: ds) (-Nat.ofDigitChars 10 ds 0)

/-- The form of a numeral, `digits [. digits] [e|E [+|-] digits]`, and the decimal that it writes. -/
inductive NumeralForm : List Char → Decimal → Prop
  | whole {ds e : List Char} {x : Int} (hd : Digits ds) (he : ExponentPart e x) :
      NumeralForm (ds ++ e) ⟨Nat.ofDigitChars 10 ds 0, x⟩
  | fraction {ds fs e : List Char} {x : Int} (hd : Digits ds) (hf : Digits fs)
      (he : ExponentPart e x) :
      NumeralForm (ds ++ '.' :: (fs ++ e)) ⟨Nat.ofDigitChars 10 (ds ++ fs) 0, x - fs.length⟩

section Forms

variable {s run r ds fs e : List Char} {c : Char} {x : Int} {d : Decimal} {inFraction : Bool}

/-- A text that is empty or starts with an exponent mark, as what ends a run does. -/
def MarkFirst (s : List Char) : Prop := ∀ c ∈ s.head?, IsExponentMark c

theorem markFirst_nil : MarkFirst [] := by simp [MarkFirst]

theorem markFirst_cons : MarkFirst (c :: s) ↔ IsExponentMark c := by simp [MarkFirst]

theorem ExponentPart.markFirst (h : ExponentPart e x) : MarkFirst e := by
  cases h with
  | none => exact markFirst_nil
  | plain he | plus he | minus he => exact markFirst_cons.mpr he

theorem MarkFirst.not_isDigit (h : MarkFirst e) : ∀ c ∈ e.head?, c.isDigit = false := by
  intro c hc
  by_contra hdigit
  exact not_isExponentMark_of_isDigit (by simpa using hdigit) (h c hc)

theorem not_digits_cons (hc : c.isDigit = false) : ¬ Digits (c :: s) := by
  simp [Digits, hc]

/-- Up to its first exponent mark a run is digits and a fraction. -/
theorem shape_of_numeralRun (h : numeralRun inFraction s = (run, r)) :
    MarkFirst (run.dropWhile Char.isDigit) ∨
      inFraction = false ∧ ∃ d fs, run.dropWhile Char.isDigit = '.' :: d :: fs ∧ d.isDigit = true ∧
        MarkFirst (fs.dropWhile Char.isDigit) := by
  fun_induction numeralRun inFraction s generalizing run with
  | case1 =>
    cases h
    exact .inl markFirst_nil
  | case2 inFraction c rest hc run₁ r₁ hrun₁ ih =>
    cases h
    rw [List.dropWhile_cons_of_pos hc]
    exact ih hrun₁
  | case3 inFraction c rest hc hpoint run₁ r₁ hrun₁ ih =>
    cases h
    obtain ⟨rfl, rfl, d, behind, rfl, hdigit⟩ := point_iff.mp hpoint
    -- behind the point there is no second one
    obtain hmark | ⟨hmode, -⟩ := ih hrun₁
    · rw [numeralRun_cons_of_isDigit hdigit] at hrun₁
      cases hrun₁
      rw [List.dropWhile_cons_of_pos hdigit] at hmark
      exact .inr ⟨rfl, d, _, List.dropWhile_cons_of_neg (by decide), hdigit, hmark⟩
    · cases hmode
  | case4 inFraction c hc he | case5 inFraction c hc he | case6 inFraction c hc he =>
    cases h
    rw [List.dropWhile_cons_of_neg hc]
    exact .inl (markFirst_cons.mpr (isExponentMark_iff.mpr he))
  | case7 inFraction c rest hc hpoint he =>
    cases h
    exact .inl markFirst_nil

theorem span_digits (hd : ∀ c ∈ ds, c.isDigit = true) (he : ∀ c ∈ e.head?, c.isDigit = false) :
    (ds ++ e).takeWhile Char.isDigit = ds ∧ (ds ++ e).dropWhile Char.isDigit = e := by
  rw [List.takeWhile_append_of_pos hd, List.dropWhile_append_of_pos hd]
  cases e with
  | nil => simp
  | cons c e => simp [he c rfl]

theorem magnitude?_eq_some_iff :
    Numeral.exponentOf?.magnitude? s = some x ↔ Digits s ∧ Nat.ofDigitChars 10 s 0 = x := by
  have hdigits : (s.isEmpty || !s.all Char.isDigit) = true ↔ ¬ Digits s := by
    simp only [Digits, Bool.or_eq_true, List.isEmpty_iff, Bool.not_eq_true', Bool.eq_false_iff,
      List.all_eq_true, not_and_or, not_not, ne_eq]
  rw [Numeral.exponentOf?.magnitude?, Option.ite_none_left_eq_some, hdigits, not_not,
    Option.some.injEq]
  rfl

theorem exponentOf?_eq_some_iff (h : MarkFirst s) :
    Numeral.exponentOf? s = some x ↔ ExponentPart s x := by
  fun_cases Numeral.exponentOf? s with
  | case1 =>
    rw [Option.some.injEq]
    constructor
    · rintro rfl
      exact .none
    · intro hx
      cases hx
      rfl
  | case2 c ds =>
    have hc := markFirst_cons.mp h
    simp only [Option.map_id_fun', id_eq, magnitude?_eq_some_iff]
    constructor
    · rintro ⟨hd, rfl⟩
      exact .plus hc hd
    · intro hx
      cases hx with
      | plain _ hd => exact absurd hd (not_digits_cons rfl)
      | plus _ hd => exact ⟨hd, rfl⟩
  | case3 c ds =>
    have hc := markFirst_cons.mp h
    simp only [Option.map_eq_some_iff, magnitude?_eq_some_iff]
    constructor
    · rintro ⟨_, ⟨hd, rfl⟩, rfl⟩
      exact .minus hc hd
    · intro hx
      cases hx with
      | plain _ hd => exact absurd hd (not_digits_cons rfl)
      | minus _ hd => exact ⟨_, ⟨hd, rfl⟩, rfl⟩
  | case4 c ds hplus hminus =>
    have hc := markFirst_cons.mp h
    simp only [Option.map_id_fun', id_eq, magnitude?_eq_some_iff]
    constructor
    · rintro ⟨hd, rfl⟩
      exact .plain hc hd
    · intro hx
      cases hx with
      | plain _ hd => exact ⟨hd, rfl⟩
      | plus => exact absurd rfl (hplus _)
      | minus => exact absurd rfl (hminus _)

theorem ne_nil_of_numeralRun (hc : c.isDigit = true) (h : numeralRun false (c :: s) = (run, r)) :
    run ≠ [] := by
  rw [numeralRun_cons_of_isDigit hc] at h
  cases h
  exact List.cons_ne_nil _ _

/-- A run that starts with a digit is digits, a fraction if any and what an exponent mark begins. -/
theorem exists_parts_of_numeralRun (hc : c.isDigit = true)
    (h : numeralRun false (c :: s) = (run, r)) :
    (∃ ds e, run = ds ++ e ∧ Digits ds ∧ MarkFirst e) ∨
      ∃ ds fs e, run = ds ++ '.' :: (fs ++ e) ∧ Digits ds ∧ Digits fs ∧ MarkFirst e := by
  have hsplit : ∀ {d : Char} {t : List Char}, d.isDigit = true →
      ∃ ds, d :: t = ds ++ (d :: t).dropWhile Char.isDigit ∧ Digits ds := by
    intro d t hd
    refine ⟨_, List.takeWhile_append_dropWhile.symm, ?_, fun _ => List.mem_takeWhile_imp⟩
    rw [List.takeWhile_cons_of_pos hd]
    exact List.cons_ne_nil _ _
  have hshape := shape_of_numeralRun h
  rw [numeralRun_cons_of_isDigit hc] at h
  cases h
  obtain ⟨ds, hrun, hds⟩ := hsplit (t := (numeralRun false s).1) hc
  rcases hshape with he | ⟨-, d, fs, hpoint, hd, he⟩
  · exact .inl ⟨ds, _, hrun, hds, he⟩
  · obtain ⟨fs', hfs, hfs'⟩ := hsplit (t := fs) hd
    rw [hpoint, hfs] at hrun
    rw [List.dropWhile_cons_of_pos hd] at hrun
    exact .inr ⟨ds, fs', _, hrun, hds, hfs', he⟩

theorem ofRun?_whole (hd : Digits ds) (he : MarkFirst e) :
    Numeral.ofRun? (ds ++ e) = (Numeral.exponentOf? e).map (⟨ds, [], ·⟩) := by
  obtain ⟨htake, hdrop⟩ := span_digits hd.2 he.not_isDigit
  unfold Numeral.ofRun?
  rw [htake, hdrop]
  split
  · exact absurd (markFirst_cons.mp he) (by simp [IsExponentMark])
  · rfl

theorem ofRun?_fraction (hd : Digits ds) (hf : Digits fs) (he : MarkFirst e) :
    Numeral.ofRun? (ds ++ '.' :: (fs ++ e)) = (Numeral.exponentOf? e).map (⟨ds, fs, ·⟩) := by
  obtain ⟨htake, hdrop⟩ := span_digits (e := '.' :: (fs ++ e)) hd.2 (by rintro c ⟨⟩; rfl)
  obtain ⟨htake', hdrop'⟩ := span_digits hf.2 he.not_isDigit
  unfold Numeral.ofRun?
  rw [htake, hdrop]
  simp only [htake', hdrop']

theorem decimal_whole (ds : List Char) (x : Int) :
    Numeral.decimal ⟨ds, [], x⟩ = ⟨Nat.ofDigitChars 10 ds 0, x⟩ := by
  simp [Numeral.decimal, digitsValue, Nat.ofDigitChars]

theorem NumeralForm.decimal_ofRun? (h : NumeralForm run d) :
    (Numeral.ofRun? run).map Numeral.decimal = some d := by
  cases h with
  | whole hds he =>
    rw [ofRun?_whole hds he.markFirst, (exponentOf?_eq_some_iff he.markFirst).mpr he,
      Option.map_some, Option.map_some, decimal_whole]
  | fraction hds hfs he =>
    rw [ofRun?_fraction hds hfs he.markFirst, (exponentOf?_eq_some_iff he.markFirst).mpr he]
    rfl

/-- A form writes one decimal. -/
theorem NumeralForm.unique {d' : Decimal} (h : NumeralForm run d) (h' : NumeralForm run d') : d' = d :=
  Option.some.inj (h'.decimal_ofRun?.symm.trans h.decimal_ofRun?)

/-- What is read of a run is its form. -/
theorem decimal_ofRun?_iff (hc : c.isDigit = true) (h : numeralRun false (c :: s) = (run, r)) :
    (Numeral.ofRun? run).map Numeral.decimal = some d ↔ NumeralForm run d := by
  constructor
  · intro hd
    obtain ⟨n, hn, rfl⟩ := Option.map_eq_some_iff.mp hd
    rcases exists_parts_of_numeralRun hc h with ⟨ds, e, rfl, hds, he⟩ | ⟨ds, fs, e, rfl, hds, hfs, he⟩
    · rw [ofRun?_whole hds he] at hn
      obtain ⟨x, hx, rfl⟩ := Option.map_eq_some_iff.mp hn
      rw [decimal_whole]
      exact .whole hds ((exponentOf?_eq_some_iff he).mp hx)
    · rw [ofRun?_fraction hds hfs he] at hn
      obtain ⟨x, hx, rfl⟩ := Option.map_eq_some_iff.mp hn
      exact .fraction hds hfs ((exponentOf?_eq_some_iff he).mp hx)
  · exact NumeralForm.decimal_ofRun?

theorem Digits.numeralForm (h : Digits run) : NumeralForm run ⟨Nat.ofDigitChars 10 run 0, 0⟩ := by
  have hform := NumeralForm.whole h .none
  rwa [List.append_nil] at hform

end Forms

/-! ## Tokens -/

section Tokens

variable {run s r : List Char} {c : Char} {n : Int64} {x : Double}

theorem ofDigitChars_le_of_toInt_eq (h : n.toInt = Nat.ofDigitChars 10 run 0) :
    Nat.ofDigitChars 10 run 0 ≤ 2 ^ 63 - 1 := by
  have hhigh := n.toInt_lt
  omega

/-- Digits make an integer if their number fits 64 bits, and a double otherwise. -/
theorem numeralToken?_of_digits (h : Digits run) :
    (∃ n, numeralToken? run = some (.integer n) ∧ n.toInt = Nat.ofDigitChars 10 run 0) ∨
      numeralToken? run = some (.double (.ofDecimal ⟨Nat.ofDigitChars 10 run 0, 0⟩)) ∧
        ¬ Nat.ofDigitChars 10 run 0 ≤ 2 ^ 63 - 1 := by
  have hvalue : digitsValue run = Nat.ofDigitChars 10 run 0 := rfl
  rw [numeralToken?, if_pos (List.all_eq_true.mpr h.2), hvalue]
  by_cases hle : Nat.ofDigitChars 10 run 0 ≤ 2 ^ 63 - 1
  · obtain ⟨n, hn⟩ := Value.exists_toInt_eq (m := Nat.ofDigitChars 10 run 0) (by omega) (by omega)
    simp only [Value.int64?_eq_some_iff.mpr hn]
    exact .inl ⟨n, rfl, hn⟩
  · have hnone : Value.int64? (Nat.ofDigitChars 10 run 0) = none := by
      rw [Option.eq_none_iff_forall_ne_some]
      intro n hn
      exact hle (ofDigitChars_le_of_toInt_eq (Value.int64?_eq_some_iff.mp hn))
    simp only [hnone]
    exact .inr ⟨trivial, hle⟩

/-- Any other run makes a double if it has the form. -/
theorem numeralToken?_of_not_digits (h : ¬ Digits run) (hne : run ≠ []) :
    numeralToken? run =
      ((Numeral.ofRun? run).map Numeral.decimal).map fun d => .double (.ofDecimal d) := by
  have hall : ¬ run.all Char.isDigit = true := fun hall => h ⟨hne, List.all_eq_true.mp hall⟩
  rw [numeralToken?, if_neg hall, Option.map_map]
  rfl

theorem numeralToken?_eq_integer_iff (hne : run ≠ []) :
    numeralToken? run = some (.integer n) ↔ Digits run ∧ n.toInt = Nat.ofDigitChars 10 run 0 := by
  by_cases hd : Digits run
  · rcases numeralToken?_of_digits hd with ⟨k, hk, hvalue⟩ | ⟨hx, hle⟩
    · rw [hk, ← hvalue, Option.some.injEq, Token.integer.injEq, eq_comm, Int64.toInt_inj,
        and_iff_right hd]
    · rw [hx]
      exact iff_of_false (by simp) fun h => hle (ofDigitChars_le_of_toInt_eq h.2)
  · rw [numeralToken?_of_not_digits hd hne]
    exact iff_of_false (by simp) fun h => hd h.1

theorem numeralToken?_eq_double_iff (hc : c.isDigit = true)
    (h : numeralRun false (c :: s) = (run, r)) :
    numeralToken? run = some (.double x) ↔
      ∃ d, NumeralForm run d ∧ x = .ofDecimal d ∧
        ¬ (Digits run ∧ Nat.ofDigitChars 10 run 0 ≤ 2 ^ 63 - 1) := by
  by_cases hd : Digits run
  · have hform : ∀ {d}, NumeralForm run d ↔ d = ⟨Nat.ofDigitChars 10 run 0, 0⟩ :=
      ⟨fun h => hd.numeralForm.unique h, fun h => h ▸ hd.numeralForm⟩
    simp only [hform, exists_eq_left, hd, true_and]
    rcases numeralToken?_of_digits hd with ⟨k, hk, hvalue⟩ | ⟨hx, hle⟩
    · rw [hk]
      exact iff_of_false (by simp) fun h => h.2 (ofDigitChars_le_of_toInt_eq hvalue)
    · rw [hx, and_iff_left hle, Option.some.injEq, Token.double.injEq, eq_comm]
  · rw [numeralToken?_of_not_digits hd (ne_nil_of_numeralRun hc h)]
    constructor
    · intro hx
      obtain ⟨d, hform, hx⟩ := Option.map_eq_some_iff.mp hx
      exact ⟨d, (decimal_ofRun?_iff hc h).mp hform, (Token.double.inj hx).symm, fun h => hd h.1⟩
    · rintro ⟨d, hform, rfl, -⟩
      rw [hform.decimal_ofRun?]
      rfl

theorem numeralToken?_eq_none_iff (hc : c.isDigit = true)
    (h : numeralRun false (c :: s) = (run, r)) :
    numeralToken? run = none ↔ ¬ ∃ d, NumeralForm run d := by
  constructor
  · rintro hnone ⟨d, hform⟩
    by_cases hd : Digits run
    · rcases numeralToken?_of_digits hd with ⟨n, hn, -⟩ | ⟨hx, -⟩
      · cases hnone.symm.trans hn
      · cases hnone.symm.trans hx
    · have hx := (numeralToken?_eq_double_iff hc h).mpr ⟨d, hform, rfl, fun h => hd h.1⟩
      cases hnone.symm.trans hx
  · intro hform
    rw [Option.eq_none_iff_forall_ne_some]
    intro t ht
    rcases numeralToken?_cases ht with ⟨n, rfl⟩ | ⟨x, rfl⟩
    · obtain ⟨hd, -⟩ := (numeralToken?_eq_integer_iff (ne_nil_of_numeralRun hc h)).mp ht
      exact hform ⟨_, hd.numeralForm⟩
    · obtain ⟨d, hd, -⟩ := (numeralToken?_eq_double_iff hc h).mp ht
      exact hform ⟨d, hd⟩

end Tokens

/-! ## Reading -/

section Reading

variable {s : Scanner} {c : Char} {rest run r : List Char}

theorem next_of_isDigit (hs : s.rest = c :: rest) (hc : c.isDigit = true)
    (hrun : numeralRun false (c :: rest) = (run, r)) :
    s.next = ((numeralToken? run).elim (.error (.invalidNumber s.position)) .ok, s.moveTo r) := by
  have halnum : c.isAlphanum = true := by simp [Char.isAlphanum, hc]
  obtain ⟨-, -, hopen⟩ := alphanum_cases halnum
  have hskip : skipGap (c :: rest) = c :: rest :=
    skipGap_cons (isBlank_of_isAlphanum halnum) fun h => absurd h hopen
  have hmove : s.moveTo (c :: rest) = s := by rw [← hs]; rfl
  rw [Scanner.next, hs, hskip, hmove, hs]
  exact read_of_isDigit hc hrun s

/-- **A numeral is read by its form.** In front of a digit there is a run, and the scanner takes it. It
is an invalid number exactly when it is not `digits [. digits] [e|E [+|-] digits]`; otherwise it is an
integer if it is digits whose number fits 64 bits, and else the double next to the decimal that it
writes. So digits alone are never invalid. -/
theorem numeral_read_by_form (hs : s.rest = c :: rest) (hc : c.isDigit = true) :
    (∃ run r, RunOf [] s.rest run r) ∧
      ∀ run r, RunOf [] s.rest run r →
        (s.rest = run ++ r ∧ s.next.2 = s.moveTo r) ∧
        (s.next.1 = .error (.invalidNumber s.position) ↔ ¬ ∃ d, NumeralForm run d) ∧
        (∀ n : Int64, s.next.1 = .ok (.integer n) ↔
          Digits run ∧ Nat.ofDigitChars 10 run 0 ≤ 2 ^ 63 - 1 ∧ n.toInt = Nat.ofDigitChars 10 run 0) ∧
        (∀ x, s.next.1 = .ok (.double x) ↔
          ∃ d, NumeralForm run d ∧ x = .ofDecimal d ∧
            ¬ (Digits run ∧ Nat.ofDigitChars 10 run 0 ≤ 2 ^ 63 - 1)) ∧
        (Digits run → ∃ t, s.next.1 = .ok t) := by
  refine ⟨⟨_, _, runOf_iff.mpr rfl⟩, fun run r h => ?_⟩
  rw [runOf_iff, hs] at h
  have hne := ne_nil_of_numeralRun hc h
  have hok : ∀ {t}, s.next.1 = .ok t ↔ numeralToken? run = some t := by
    intro t
    rw [next_of_isDigit hs hc h]
    cases numeralToken? run <;> simp
  have herror : s.next.1 = .error (.invalidNumber s.position) ↔ numeralToken? run = none := by
    rw [next_of_isDigit hs hc h]
    cases numeralToken? run <;> simp
  refine ⟨⟨?_, ?_⟩, ?_, fun n => ?_, fun x => ?_, fun hd => ?_⟩
  · rw [hs]
    exact (numeralRun_of_cut h).1
  · rw [next_of_isDigit hs hc h]
  · rw [herror, numeralToken?_eq_none_iff hc h]
  · rw [hok, numeralToken?_eq_integer_iff hne]
    exact and_congr_right fun _ => (and_iff_right_of_imp ofDigitChars_le_of_toInt_eq).symm
  · rw [hok, numeralToken?_eq_double_iff hc h]
  · rcases numeralToken?_of_digits hd with ⟨n, hn, -⟩ | ⟨hx, -⟩
    · exact ⟨_, hok.mpr hn⟩
    · exact ⟨_, hok.mpr hx⟩

/-- The run of `12.5e+3.7` ends in front of its second point. -/
theorem numeral_read_by_form_of_second_point :
    (Scanner.mk 9 ['1', '2', '.', '5', 'e', '+', '3', '.', '7']).next =
      (.ok (.double (.ofDecimal ⟨125, 2⟩)), ⟨9, ['.', '7']⟩) := by
  obtain ⟨-, h⟩ := numeral_read_by_form
    (s := ⟨9, ['1', '2', '.', '5', 'e', '+', '3', '.', '7']⟩) rfl rfl
  obtain ⟨⟨-, hmoved⟩, -, -, hdouble, -⟩ := h _ ['.', '7'] (runOf_iff.mpr rfl)
  have hwhole : Digits ['1', '2'] := by simp [Digits]
  have hfraction : Digits ['5'] := by simp [Digits]
  have hexponent : ExponentPart ['e', '+', '3'] 3 := .plus (.inl rfl) (by simp [Digits])
  have hform : NumeralForm ['1', '2', '.', '5', 'e', '+', '3'] ⟨125, 2⟩ :=
    .fraction hwhole hfraction hexponent
  exact Prod.ext ((hdouble _).mpr ⟨_, hform, rfl, by simp [Digits]⟩) hmoved

end Reading

end PullSql.Sql
