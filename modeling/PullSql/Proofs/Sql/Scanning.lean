import PullSql.Proofs.Sql.Spelling
import PullSql.Proofs.Text.Cases

/-!
# Scanning what was spelled

The scanner takes a spelled token and nothing of what stands behind it, provided that this is the end
of the input or begins with a blank (`next_of_spells`). Each loop of the scanner has its own lemma:

1. gaps (`afterGap_filler`);
2. text literals and quoted identifiers (`closeText_of_textBody`, `closeIdentifier_doubleQuotes`);
3. numerals (`numeralRun_of_digits`) and words (`wordToken_of_inSomeCase`, `wordToken_of_isBare`).

Main statement: `tokens_of_written`.
-/

namespace PullSql.Sql.Spelling

/-- Behind such a rest a token is at its end. -/
def Stops (rest : List Char) : Prop := ∀ c ∈ rest.head?, Text.isBlank c = true

/-! ## Characters -/

/-- The visible characters of ASCII are no blanks. -/
theorem isBlank_eq_false {c : Char} (h : 0x21 ≤ c.toNat) (h' : c.toNat ≤ 0x7E) :
    Text.isBlank c = false := by
  simp only [Text.isBlank, Text.blankRanges, Text.inRanges]
  simp
  omega

theorem isAlpha_iff_toNat {c : Char} : c.isAlpha = true ↔
    (65 ≤ c.toNat ∧ c.toNat ≤ 90) ∨ (97 ≤ c.toNat ∧ c.toNat ≤ 122) := by
  simp only [Char.isAlpha, Char.isUpper, Char.isLower, Bool.or_eq_true, Bool.and_eq_true,
    decide_eq_true_eq, ge_iff_le, UInt32.le_iff_toNat_le]
  exact Iff.rfl

theorem toNat_of_isAlphanum {c : Char} (h : c.isAlphanum = true) :
    48 ≤ c.toNat ∧ c.toNat ≤ 122 := by
  rw [Char.isAlphanum, Bool.or_eq_true, isAlpha_iff_toNat, Char.isDigit_iff_toNat] at h
  change _ ∨ (48 ≤ c.toNat ∧ c.toNat ≤ 57) at h
  omega

theorem isDigit_eq_false {c : Char} (h : c.isAlpha = true) : c.isDigit = false := by
  rw [← Bool.not_eq_true, Char.isDigit_iff_toNat]
  change ¬ (48 ≤ c.toNat ∧ c.toNat ≤ 57)
  rw [isAlpha_iff_toNat] at h
  omega

theorem isBlank_of_isAlphanum {c : Char} (h : c.isAlphanum = true) : Text.isBlank c = false := by
  obtain ⟨h1, h2⟩ := toNat_of_isAlphanum h
  exact isBlank_eq_false (by omega) (by omega)

theorem isWordChar_eq_false {c : Char} (h : Text.isBlank c = true) : isWordChar c = false := by
  by_contra hw
  rw [Bool.not_eq_false, isWordChar, Bool.or_eq_true, decide_eq_true_eq] at hw
  rcases hw with hw | rfl
  · rw [isBlank_of_isAlphanum hw] at h
    cases h
  · revert h
    decide

theorem ofChar?_eq_none {c : Char} (h : c.isAlphanum = true) : Mark.ofChar? c = none := by
  rcases hm : Mark.ofChar? c with _ | m
  · rfl
  · have hc : (m.char == c) = true := List.find?_some (p := fun m : Mark => m.char == c) hm
    obtain rfl : m.char = c := eq_of_beq hc
    cases m <;> cases h

theorem stops_nil : Stops [] := fun _ hc => nomatch hc

theorem Stops.head_ne {c : Char} {rest : List Char} (h : Stops rest)
    (hc : Text.isBlank c = false) : rest.head? ≠ some c := by
  intro hr
  rw [h c hr] at hc
  cases hc

/-! ## Gaps -/

theorem afterGap_blank {c : Char} (hc : Text.isBlank c = true) (s : List Char) :
    afterGap .outside (c :: s) = afterGap .outside s := by
  have h1 : c ≠ '-' := by
    rintro rfl
    exact absurd hc (by decide)
  have h2 : c ≠ '/' := by
    rintro rfl
    exact absurd hc (by decide)
  simp [afterGap, h1, h2, hc]

theorem afterGap_lineComment {body : List Char} (hb : '\n' ∉ body) (s : List Char) :
    afterGap .lineComment (body ++ '\n' :: s) = afterGap .outside s := by
  induction body with
  | nil => simp [afterGap]
  | cons c body ih =>
    rw [List.mem_cons, not_or] at hb
    simp [afterGap, Ne.symm hb.1, ih hb.2]

theorem afterGap_blockComment {body : List Char} (hb : ¬ ['*', '/'] <:+: body) (s : List Char) :
    afterGap .blockComment (body ++ '*' :: '/' :: s) = afterGap .outside s := by
  induction body with
  | nil => simp [afterGap]
  | cons c body ih =>
    have hbody : ¬ ['*', '/'] <:+: body := fun h => hb (h.trans (List.suffix_cons c body).isInfix)
    have hc : c = '*' → ∀ t, body ++ '*' :: '/' :: s ≠ '/' :: t := by
      rintro rfl t ht
      cases body with
      | nil => cases ht
      | cons d body =>
        obtain rfl : d = '/' := (List.cons.inj ht).1
        exact hb ⟨[], body, rfl⟩
    rw [List.cons_append, ← ih hbody, afterGap]
    intro t h1 h2
    exact hc h1 t h2

/-- Blanks and closed comments are passed over. -/
theorem afterGap_filler {gap : List Char} (h : Filler gap) (s : List Char) :
    afterGap .outside (gap ++ s) = afterGap .outside s := by
  induction h with
  | nil => rfl
  | blank hc _ ih => rw [List.cons_append, afterGap_blank hc, ih]
  | @line body cs hb _ ih =>
    have hline := afterGap_lineComment hb (cs ++ s)
    simp only [List.cons_append, List.append_assoc, afterGap]
    rw [hline, ih]
  | @block body cs hb _ ih =>
    have hblock := afterGap_blockComment hb (cs ++ s)
    simp only [List.cons_append, List.append_assoc, afterGap]
    rw [hblock, ih]

/-- No gap is in front of a visible character that opens no comment. -/
theorem skipGap_cons {c : Char} {s : List Char} (hc : Text.isBlank c = false)
    (hs : c = '-' ∨ c = '/' → Stops s) : skipGap (c :: s) = c :: s := by
  have h1 : c = '-' → ∀ t, s ≠ '-' :: t := by
    rintro h t rfl
    exact (hs (.inl h)).head_ne (by decide) rfl
  have h2 : c = '/' → ∀ t, s ≠ '*' :: t := by
    rintro h t rfl
    exact (hs (.inr h)).head_ne (by decide) rfl
  rw [skipGap, afterGap, if_neg (by simp [hc])]
  · exact fun t e => h1 e t
  · exact fun t e => h2 e t

/-! ## Quoted tokens -/

theorem closeText_of_textBody {s body rest : List Char} (h : TextBody s body)
    (hr : rest.head? ≠ some '\'') : closeText (body ++ '\'' :: rest) = some (s, rest) := by
  induction h with
  | nil =>
    cases rest with
    | nil => rfl
    | cons d rest =>
      have hd : d ≠ '\'' := fun e => hr (congrArg some e)
      simp [closeText, hd]
  | escaped _ ih => simp [closeText, ih]
  | doubled _ ih => simp [closeText, ih]
  | @plain c s body hc hb _ ih =>
    have hbody : c = '\\' → ∀ t, body ++ '\'' :: rest ≠ '\'' :: t := by
      intro e t ht
      obtain ⟨d, hd, hne⟩ := hb e
      cases body with
      | nil => cases hd
      | cons d' body =>
        obtain rfl : d' = d := Option.some.inj hd
        exact hne (List.cons.inj ht).1
    rw [List.cons_append, closeText]
    · rw [ih]
      rfl
    · exact fun t e => hbody e t
    · exact fun t e => absurd e hc
    · exact hc

theorem closeIdentifier_cons_of_ne {quote c : Char} (h : c ≠ quote) (s : List Char) :
    closeIdentifier quote (c :: s) = (closeIdentifier quote s).map fun (t, rest) => (c :: t, rest) := by
  cases s with
  | nil => simp [closeIdentifier, h]
  | cons d s => simp [closeIdentifier, h]

theorem closeIdentifier_doubleQuotes {quote : Char} {rest : List Char} (name : List Char)
    (hr : rest.head? ≠ some quote) :
    closeIdentifier quote (doubleQuotes quote name ++ quote :: rest) = some (name, rest) := by
  induction name with
  | nil =>
    cases rest with
    | nil => simp [doubleQuotes, closeIdentifier]
    | cons d rest =>
      have hd : d ≠ quote := fun e => hr (congrArg some e)
      simp [doubleQuotes, closeIdentifier, hd]
  | cons c name ih =>
    by_cases hc : c = quote
    · subst hc
      have hn : doubleQuotes c (c :: name) = c :: c :: doubleQuotes c name := by simp [doubleQuotes]
      simp [hn, closeIdentifier, ih]
    · have hn : doubleQuotes quote (c :: name) = c :: doubleQuotes quote name := by
        simp [doubleQuotes, hc]
      rw [hn, List.cons_append, closeIdentifier_cons_of_ne hc, ih]
      rfl

/-! ## Numerals -/

theorem numeralRun_of_stops {rest : List Char} (hr : Stops rest) (inFraction : Bool) :
    numeralRun inFraction rest = ([], rest) := by
  cases rest with
  | nil => rfl
  | cons c rest =>
    have hb : Text.isBlank c = true := hr c rfl
    have h1 : c.isDigit = false := by
      by_contra h
      rw [Bool.not_eq_false] at h
      rw [isBlank_of_isAlphanum (by simp [Char.isAlphanum, h])] at hb
      cases hb
    have hne : ∀ d, Text.isBlank d = false → c ≠ d := by
      rintro d hd rfl
      rw [hb] at hd
      cases hd
    unfold numeralRun
    simp [h1, hne '.' (by decide), hne 'e' (by decide), hne 'E' (by decide)]

theorem numeralRun_of_digits {digits rest : List Char} (hd : ∀ c ∈ digits, c.isDigit = true)
    (hr : Stops rest) (inFraction : Bool) :
    numeralRun inFraction (digits ++ rest) = (digits, rest) := by
  induction digits with
  | nil => exact numeralRun_of_stops hr inFraction
  | cons c digits ih =>
    obtain ⟨hc, hd⟩ := List.forall_mem_cons.mp hd
    unfold numeralRun
    rw [List.cons_append]
    simp only [hc, if_true, ih hd]

theorem numeralToken?_toDigits {n : Int64} (hn : 0 ≤ n.toInt) :
    numeralToken? (Nat.toDigits 10 n.toInt.toNat) = some (.integer n) := by
  have hall : (Nat.toDigits 10 n.toInt.toNat).all Char.isDigit = true :=
    List.all_eq_true.mpr fun c hc => Nat.isDigit_of_mem_toDigits (by decide) (by decide) hc
  have hvalue : digitsValue (Nat.toDigits 10 n.toInt.toNat) = n.toInt.toNat :=
    Nat.ofDigitChars_ten_toDigits
  have hint : Value.int64? n.toInt = some n := by
    rw [Value.int64?, if_pos ⟨n.minValue_le_toInt, n.toInt_le⟩, Int64.ofInt_toInt]
  simp only [numeralToken?, hall, if_true, hvalue, Int.toNat_of_nonneg hn, hint]

/-! ## Words -/

/-- What can be computed for every letter of every reserved word. -/
theorem forall_mem_text {P : Char → Prop} [DecidablePred P] {k : Keyword}
    (h : k.text.toList.all (fun l => decide (P l)) = true) : ∀ l ∈ k.text.toList, P l :=
  fun l hl => of_decide_eq_true (List.all_eq_true.mp h l hl)

theorem isWordChar_text (k : Keyword) :
    ∀ l ∈ k.text.toList, isWordChar l = true ∧ isWordChar l.toLower = true :=
  forall_mem_text (by cases k <;> rfl)

theorem toUpper_text (k : Keyword) : ∀ l ∈ k.text.toList, l.toUpper = l :=
  forall_mem_text (by cases k <;> rfl)

theorem find?_text (k : Keyword) : Keyword.all.find? (·.text == k.text) = some k := by
  cases k <;> rfl

theorem toNat_of_isWordChar {c : Char} (h : isWordChar c = true) : c.toNat < 0x80 := by
  rw [isWordChar, Bool.or_eq_true, decide_eq_true_eq] at h
  rcases h with h | rfl
  · have := (toNat_of_isAlphanum h).2
    omega
  · decide

theorem upper_ofList {cs : List Char} (h : ∀ c ∈ cs, isWordChar c = true) :
    Text.upper (String.ofList cs) = String.ofList (cs.map Char.toUpper) := by
  rw [Text.upper, String.toList_ofList,
    Text.upperChars_of_ascii fun c hc => toNat_of_isWordChar (h c hc)]

/-- A word in some case of a reserved word is made of word characters. -/
theorem isWordChar_of_inSomeCase {k : Keyword} {cs : List Char} (h : InSomeCase k.text.toList cs) :
    ∀ c ∈ cs, isWordChar c = true := by
  have hk := isWordChar_text k
  generalize k.text.toList = word at h hk
  induction h with
  | nil => simp
  | cons hc _ ih =>
    obtain ⟨hl, hword⟩ := List.forall_mem_cons.mp hk
    refine List.forall_mem_cons.mpr ⟨?_, ih hword⟩
    rcases hc with rfl | rfl
    · exact hl.1
    · exact hl.2

theorem wordToken_of_inSomeCase {k : Keyword} {cs : List Char} (h : InSomeCase k.text.toList cs) :
    wordToken (String.ofList cs) = .keyword k := by
  have hu : Text.upper (String.ofList cs) = k.text := by
    rw [upper_ofList (isWordChar_of_inSomeCase h), (Text.map_toUpper_eq_iff (toUpper_text k)).mpr h,
      String.ofList_toList]
  simp only [wordToken, Keyword.ofWord?, hu, find?_text]

theorem isWordChar_of_isBare {name : List Char} (h : IsBare name) :
    ∀ c ∈ name, isWordChar c = true := by
  obtain ⟨c, rest, rfl, hc, hrest⟩ := h
  refine List.forall_mem_cons.mpr ⟨by simp [isWordChar, Char.isAlphanum, hc], fun d hd => ?_⟩
  simpa [isWordChar] using hrest d hd

theorem wordToken_of_isBare {name : String} (h : IsBare name.toList)
    (hk : ∀ k : Keyword, ¬ InSomeCase k.text.toList name.toList) :
    wordToken name = .identifier name := by
  have hnone : Keyword.ofWord? name = none := by
    refine List.find?_eq_none.mpr fun k _ he => hk k ?_
    have hu := upper_ofList (isWordChar_of_isBare h)
    rw [String.ofList_toList] at hu
    rw [beq_iff_eq, hu] at he
    refine (Text.map_toUpper_eq_iff (toUpper_text k)).mp ?_
    rw [he, String.toList_ofList]
  simp only [wordToken, hnone]

theorem takeWhile_isWordChar {cs rest : List Char} (h : ∀ c ∈ cs, isWordChar c = true)
    (hr : Stops rest) :
    (cs ++ rest).takeWhile isWordChar = cs ∧ (cs ++ rest).dropWhile isWordChar = rest := by
  rw [List.takeWhile_append_of_pos h, List.dropWhile_append_of_pos h]
  cases rest with
  | nil => simp
  | cons c rest => simp [isWordChar_eq_false (hr c rfl)]

/-! ## Tokens -/

/-- The scanner takes the characters `cs` for the token `t` when `rest` stands behind them. They begin
with no blank, and with the first character of a comment only if they end with it. -/
def Takes (t : Token) (cs rest : List Char) : Prop :=
  ∃ c cs', cs = c :: cs' ∧ Text.isBlank c = false ∧ (c = '-' ∨ c = '/' → cs' = []) ∧
    ∀ s : Scanner, s.read c (cs' ++ rest) = (.ok t, s.moveTo rest)

variable {rest : List Char}

theorem takes_mark (m : Mark) : Takes (.mark m) [m.char] rest := by
  refine ⟨m.char, [], rfl, ?_, fun _ => rfl, fun s => ?_⟩
  · cases m <;> decide
  · simp [Scanner.read, Mark.ofChar?_char]

theorem takes_text {s : String} {body : List Char} (h : TextBody s.toList body) (hr : Stops rest) :
    Takes (.text s) ('\'' :: body ++ ['\'']) rest := by
  refine ⟨'\'', body ++ ['\''], rfl, by decide, fun h => absurd h (by decide), fun sc => ?_⟩
  have hm : Mark.ofChar? '\'' = none := rfl
  have hclose := closeText_of_textBody h (hr.head_ne (by decide))
  simp [Scanner.read, hm, hclose]

theorem takes_quoted (name : String) {quote : Char} (hq : quote = '"' ∨ quote = '\x60')
    (hr : Stops rest) :
    Takes (.identifier name) (quote :: doubleQuotes quote name.toList ++ [quote]) rest := by
  have hblank : Text.isBlank quote = false := by rcases hq with rfl | rfl <;> decide
  have hm : Mark.ofChar? quote = none := by rcases hq with rfl | rfl <;> rfl
  have hne : quote ≠ '\'' := by rcases hq with rfl | rfl <;> decide
  have hquote : isIdentifierQuote quote = true := by rcases hq with rfl | rfl <;> decide
  have hopen : ¬ (quote = '-' ∨ quote = '/') := by rcases hq with rfl | rfl <;> decide
  have hclose := closeIdentifier_doubleQuotes name.toList (hr.head_ne hblank)
  refine ⟨quote, doubleQuotes quote name.toList ++ [quote], rfl, hblank, fun h => absurd h hopen,
    fun sc => ?_⟩
  simp [Scanner.read, hm, hne, hquote, hclose]

/-- What the scanner knows of a letter or a digit. -/
theorem alphanum_cases {c : Char} (h : c.isAlphanum = true) :
    c ≠ '\'' ∧ isIdentifierQuote c = false ∧ ¬ (c = '-' ∨ c = '/') := by
  have hne : ∀ d : Char, d.isAlphanum = false → c ≠ d := by
    rintro d hd rfl
    rw [hd] at h
    cases h
  refine ⟨hne _ rfl, ?_, ?_⟩
  · simp [isIdentifierQuote, hne '"' rfl, hne '\x60' rfl]
  · exact not_or.mpr ⟨hne _ rfl, hne _ rfl⟩

/-- A digit begins a numeral and nothing else. -/
theorem read_of_isDigit {c : Char} {cs run r : List Char} (hc : c.isDigit = true)
    (hrun : numeralRun false (c :: cs) = (run, r)) (sc : Scanner) :
    sc.read c cs =
      ((numeralToken? run).elim (.error (.invalidNumber sc.position)) .ok, sc.moveTo r) := by
  have halnum : c.isAlphanum = true := by simp [Char.isAlphanum, hc]
  obtain ⟨h1, h2, -⟩ := alphanum_cases halnum
  simp only [Scanner.read, ofChar?_eq_none halnum, h1, h2, hc, hrun, if_true, if_false,
    Bool.false_eq_true]
  cases numeralToken? run <;> rfl

/-- A letter begins a word and nothing else. -/
theorem read_of_isAlpha {c : Char} (hc : c.isAlpha = true) (cs : List Char) (sc : Scanner) :
    sc.read c cs = (.ok (wordToken (String.ofList ((c :: cs).takeWhile isWordChar))),
      sc.moveTo ((c :: cs).dropWhile isWordChar)) := by
  have halnum : c.isAlphanum = true := by simp [Char.isAlphanum, hc]
  obtain ⟨h1, h2, -⟩ := alphanum_cases halnum
  simp only [Scanner.read, ofChar?_eq_none halnum, h1, h2, isDigit_eq_false hc, hc,
    Bool.false_eq_true, if_true, if_false]

theorem takes_integer {n : Int64} (hn : 0 ≤ n.toInt) (hr : Stops rest) :
    Takes (.integer n) (Nat.toDigits 10 n.toInt.toNat) rest := by
  have htoken := numeralToken?_toDigits hn
  have hdigits : ∀ c ∈ Nat.toDigits 10 n.toInt.toNat, c.isDigit = true := fun c hc =>
    Nat.isDigit_of_mem_toDigits (by decide) (by decide) hc
  obtain ⟨c, cs, hcs⟩ := List.exists_cons_of_ne_nil (Nat.toDigits_ne_nil (b := 10))
  rw [hcs] at htoken hdigits ⊢
  have hc := hdigits c List.mem_cons_self
  have halnum : c.isAlphanum = true := by simp [Char.isAlphanum, hc]
  obtain ⟨-, -, hopen⟩ := alphanum_cases halnum
  refine ⟨c, cs, rfl, isBlank_of_isAlphanum halnum, fun h => absurd h hopen, fun sc => ?_⟩
  have hrun := numeralRun_of_digits hdigits hr false
  rw [List.cons_append] at hrun
  rw [read_of_isDigit hc hrun, htoken]
  rfl

theorem takes_word {t : Token} {c : Char} {cs : List Char} (hc : c.isAlpha = true)
    (hcs : ∀ d ∈ c :: cs, isWordChar d = true) (ht : wordToken (String.ofList (c :: cs)) = t)
    (hr : Stops rest) : Takes t (c :: cs) rest := by
  have halnum : c.isAlphanum = true := by simp [Char.isAlphanum, hc]
  obtain ⟨-, -, hopen⟩ := alphanum_cases halnum
  refine ⟨c, cs, rfl, isBlank_of_isAlphanum halnum, fun h => absurd h hopen, fun sc => ?_⟩
  obtain ⟨htake, hdrop⟩ := takeWhile_isWordChar hcs hr
  rw [List.cons_append] at htake hdrop
  rw [read_of_isAlpha hc, htake, hdrop, ht]

theorem takes_of_spells {t : Token} {cs : List Char} (h : Spells t cs) (hr : Stops rest) :
    Takes t cs rest := by
  cases h with
  | @keyword k _ h =>
    have hword := isWordChar_of_inSomeCase h
    have ht := wordToken_of_inSomeCase h
    have hletter : ∃ l ls, k.text.toList = l :: ls ∧ l.isAlpha = true ∧ l.toLower.isAlpha = true := by
      cases k <;> exact ⟨_, _, rfl, rfl, rfl⟩
    obtain ⟨l, ls, hk, hl⟩ := hletter
    rw [hk] at h
    cases h with
    | @cons c _ cs _ hc _ =>
      refine takes_word ?_ hword ht hr
      rcases hc with rfl | rfl
      · exact hl.1
      · exact hl.2
  | integer hn => exact takes_integer hn hr
  | text h => exact takes_text h hr
  | @bare name h hk =>
    have hword := isWordChar_of_isBare h
    have ht := wordToken_of_isBare h hk
    obtain ⟨c, cs, hname, hc, -⟩ := h
    have hofList : String.ofList (c :: cs) = name := by rw [← hname, String.ofList_toList]
    rw [hname] at hword ⊢
    rw [← hofList] at ht ⊢
    exact takes_word hc hword ht hr
  | quoted name hq => exact takes_quoted name hq hr
  | mark m => exact takes_mark m

/-- One step of the scanner on a spelled token. -/
theorem next_of_spells {t : Token} {cs : List Char} (ht : Spells t cs) (hr : Stops rest)
    (length : Nat) : (Scanner.mk length (cs ++ rest)).next = (.ok t, ⟨length, rest⟩) := by
  obtain ⟨c, cs', rfl, hblank, hopen, hread⟩ := takes_of_spells ht hr
  have hskip : skipGap (c :: cs' ++ rest) = c :: (cs' ++ rest) := by
    refine skipGap_cons hblank fun h => ?_
    rw [hopen h]
    exact hr
  simp only [Scanner.next, Scanner.moveTo, hskip]
  exact hread ⟨length, c :: (cs' ++ rest)⟩

/-! ## Texts -/

theorem Separator.filler {gap : List Char} (h : Separator gap) : Filler gap := by
  obtain ⟨c, rest, rfl, hc, hrest⟩ := h
  exact .blank hc hrest

theorem Separator.stops {gap : List Char} (h : Separator gap) (rest : List Char) :
    Stops (gap ++ rest) := by
  obtain ⟨c, gap, rfl, hc, -⟩ := h
  rintro d ⟨⟩
  exact hc

section Tokens

variable (bound length : Nat)

theorem tokensWithin_filler {gap : List Char} (hg : Filler gap) (s : List Char) :
    (Scanner.mk length (gap ++ s)).tokensWithin bound = (Scanner.mk length s).tokensWithin bound := by
  have hnext : (Scanner.mk length (gap ++ s)).next = (Scanner.mk length s).next := by
    simp only [Scanner.next, Scanner.moveTo, skipGap, afterGap_filler hg]
  cases bound with
  | zero => rfl
  | succ bound => simp only [Scanner.tokensWithin, hnext]

theorem tokensWithin_of_filler {gap : List Char} (hg : Filler gap) :
    (Scanner.mk length gap).tokensWithin bound = .ok [.endOfInput] := by
  rw [← List.append_nil gap, tokensWithin_filler bound length hg []]
  cases bound <;> rfl

theorem tokensWithin_spells {t : Token} {cs rest : List Char} (ht : Spells t cs) (hr : Stops rest) :
    (Scanner.mk length (cs ++ rest)).tokensWithin (bound + 1) =
      ((Scanner.mk length rest).tokensWithin bound).map (t :: ·) := by
  have hnext := next_of_spells ht hr length
  cases ht <;> simp only [Scanner.tokensWithin, hnext]

/-- The scanner's run over spaced tokens, whatever gap stands behind them. -/
theorem tokensWithin_of_spaced {ts : List Token} {body back : List Char} (h : Spaced ts body)
    (hback : Filler back) (hstops : Stops back) (hbound : ts.length ≤ bound) :
    (Scanner.mk length (body ++ back)).tokensWithin bound = .ok (ts ++ [.endOfInput]) := by
  induction h generalizing bound with
  | nil => exact tokensWithin_of_filler bound length hback
  | one ht =>
    obtain ⟨bound, rfl⟩ := Nat.exists_eq_add_of_le' hbound
    rw [List.length_singleton, tokensWithin_spells bound length ht hstops,
      tokensWithin_of_filler bound length hback]
    rfl
  | @cons t u ts cs gap rest ht hg _ ih =>
    obtain ⟨bound, rfl⟩ : ∃ k, bound = k + 1 := Nat.exists_eq_succ_of_ne_zero (by
      rintro rfl
      cases hbound)
    have hrest := ih bound (Nat.le_of_succ_le_succ hbound)
    rw [List.append_assoc, List.append_assoc, tokensWithin_spells bound length ht (hg.stops _),
      tokensWithin_filler bound length hg.filler, hrest]
    rfl

end Tokens

theorem length_le_of_spaced {ts : List Token} {body : List Char} (h : Spaced ts body) :
    ts.length ≤ body.length := by
  have hpos : ∀ {t cs}, Spells t cs → 1 ≤ cs.length := by
    intro t cs ht
    obtain ⟨c, cs', rfl, -⟩ := takes_of_spells ht stops_nil
    exact Nat.le_add_left _ _
  induction h with
  | nil => exact Nat.le_refl 0
  | one ht => exact hpos ht
  | cons ht _ _ ih =>
    have := hpos ht
    simp only [List.length_cons, List.length_append] at ih ⊢
    omega

theorem tokens_of_spaced {ts : List Token} {front body back : List Char} (h : Spaced ts body)
    (hf : front = [] ∨ Separator front) (hb : back = [] ∨ Separator back) :
    tokens (String.ofList (front ++ body ++ back)) = .ok (ts ++ [.endOfInput]) := by
  have hfront : Filler front := by
    rcases hf with rfl | hf
    · exact .nil
    · exact hf.filler
  have hback : Filler back ∧ Stops back := by
    rcases hb with rfl | hb
    · exact ⟨.nil, stops_nil⟩
    · exact ⟨hb.filler, List.append_nil back ▸ hb.stops []⟩
  have hlength := length_le_of_spaced h
  simp only [tokens, Scanner.ofText, String.toList_ofList]
  rw [List.append_assoc front, tokensWithin_filler _ _ hfront]
  refine tokensWithin_of_spaced _ _ h hback.1 hback.2 ?_
  simp only [List.length_append]
  omega

/-- **The scanner undoes the spelling.** Any tokens that can be written are what the scanner finds in
each of their texts, whatever cases, quotes and separators were chosen. -/
theorem tokens_of_written :
    (∀ ts, (∀ t ∈ ts, Writable t) ↔ ∃ text, Written ts text) ∧
    ∀ ts text, Written ts text →
      tokens (String.ofList text) = .ok (ts ++ [.endOfInput]) := by
  refine ⟨forall_writable_iff_exists_written, ?_⟩
  rintro ts _ ⟨front, body, back, rfl, h, hf, hb⟩
  exact tokens_of_spaced h hf hb

/-- Both comments, both quotes of identifiers, and marks of comments inside a text. -/
theorem tokens_of_written_of_query :
    let ts : List Token := [.keyword .SELECT, .text "it's --", .mark .minus, .integer 7,
      .identifier "from", .identifier "a\"b", .identifier "x_1"]
    let text := "\tsElEcT /* 1*2 */ 'it\\'s --' --\n- 7 \x60from\x60 \"a\"\"b\" x_1 ".toList
    Written ts text ∧ tokens (String.ofList text) = .ok (ts ++ [.endOfInput]) := by
  intro ts text
  have hblock : Separator " /* 1*2 */ ".toList := by
    have hbody : ¬ ['*', '/'] <:+: " 1*2 ".toList := by decide
    exact ⟨' ', _, rfl, rfl, .block hbody (.blank rfl .nil)⟩
  have hline : Separator " --\n".toList := separator_lineComment List.not_mem_nil
  have hselect : Spells (.keyword .SELECT) "sElEcT".toList := by
    refine .keyword ?_
    unfold InSomeCase
    decide
  have htext : Spells (.text "it's --") "'it\\'s --'".toList := spells_text (by decide)
  have hbare : Spells (.identifier "x_1") "x_1".toList := by
    have hrest : ∀ d ∈ ['_', '1'], d.isAlphanum = true ∨ d = '_' :=
      List.forall_mem_cons.mpr ⟨.inr rfl, List.forall_mem_singleton.mpr (.inl rfl)⟩
    refine .bare ⟨'x', _, rfl, rfl, hrest⟩ fun k => ?_
    unfold InSomeCase
    cases k <;> decide
  have hspace := separator_blank
  have hspaced := Spaced.cons hselect hblock (.cons htext hline (.cons (.mark .minus) hspace
    (.cons (.integer (n := 7) (by decide)) hspace (.cons (.quoted "from" (.inr rfl)) hspace
      (.cons (.quoted "a\"b" (.inl rfl)) hspace (.one hbare))))))
  have hwritten : Written ts text :=
    ⟨['\t'], _, [' '], by decide, hspaced, .inr ⟨'\t', [], rfl, rfl, .nil⟩, .inr hspace⟩
  exact ⟨hwritten, tokens_of_written.2 ts text hwritten⟩

end PullSql.Sql.Spelling
