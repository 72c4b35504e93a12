import PullSql.Proofs.Sql.Runs

/-!
# Text literals

Which texts a literal can stand for, and what becomes of a text that is put between quotes.

1. A backslash at the end of a text cannot be written, since the closing quote would be escaped by it;
   every other text has a literal (`exists_next_text_iff`).
2. To double the quotes of a text is enough exactly when no backslash stands in front of one of them or
   of the closing quote (`Quotable`, `textBody_doubleQuotes_iff`). Otherwise the literal ends at another
   place than the text, or nowhere (`tokens_doubledLiteral_iff`).
-/

namespace PullSql.Sql

open Spelling

/-! ## Literals at the front -/

theorem lexeme_text_iff {c : Char} {rest r : List Char} {v : String} :
    Lexeme c rest (.text v) r ↔ c = '\'' ∧ closeText rest = some (v.toList, r) := by
  constructor
  · intro h
    generalize ht : Token.text v = t at h
    cases h with
    | mark | identifier => cases ht
    | text hc hclose =>
      cases ht
      rw [String.toList_ofList]
      exact ⟨hc, hclose⟩
    | numeral _ _ htoken =>
      rcases numeralToken?_cases htoken with ⟨n, rfl⟩ | ⟨d, rfl⟩ <;> cases ht
    | word =>
      unfold wordToken at ht
      split at ht <;> cases ht
  · rintro ⟨hc, hclose⟩
    have h := Lexeme.text hc hclose
    rwa [String.ofList_toList] at h

/-- The scanner gives a text where it finds a quote, what is written for the text and another quote. -/
theorem next_eq_text_iff {s u : Scanner} {v : String} :
    s.next = (.ok (.text v), u) ↔
      ∃ body r, skipGap s.rest = '\'' :: body ++ '\'' :: r ∧ TextBody v.toList body ∧
        r.head? ≠ some '\'' ∧ u = s.moveTo r := by
  rw [next_eq_ok_iff]
  constructor
  · rintro (⟨-, h, -⟩ | ⟨c, rest, r, hg, hl, rfl⟩)
    · cases h
    · obtain ⟨rfl, hclose⟩ := lexeme_text_iff.mp hl
      obtain ⟨body, hb, rfl, hr⟩ := closeText_eq_some_iff.mp hclose
      exact ⟨body, r, hg, hb, hr, rfl⟩
  · rintro ⟨body, r, hg, hb, hr, rfl⟩
    have hclose := closeText_eq_some_iff.mpr ⟨body, hb, rfl, hr⟩
    exact .inr ⟨'\'', body ++ '\'' :: r, r, hg, lexeme_text_iff.mpr ⟨rfl, hclose⟩, rfl⟩

theorem getLast?_of_next_text {s : Scanner} {v : String} (h : s.next.1 = .ok (.text v)) :
    v.toList.getLast? ≠ some '\\' := by
  obtain ⟨body, r, -, hb, -⟩ := next_eq_text_iff.mp (Prod.ext h rfl)
  exact getLast?_of_textBody hb

/-- **What literals can denote.** There is an input whose first token is a given text exactly when the
text does not end in a backslash, and no later call on any input gives another text either. -/
theorem exists_next_text_iff (v : String) :
    ((∃ sql, (Scanner.ofText sql).next.1 = .ok (.text v)) ↔ v.toList.getLast? ≠ some '\\') ∧
      ((∃ s : Scanner, s.next.1 = .ok (.text v)) ↔ v.toList.getLast? ≠ some '\\') := by
  have hwrite : v.toList.getLast? ≠ some '\\' →
      ∃ sql, (Scanner.ofText sql).next.1 = .ok (.text v) := by
    intro h
    let literal := '\'' :: escapeQuotes v.toList ++ ['\'']
    have hnext := next_of_spells (spells_text h) stops_nil literal.length
    rw [List.append_nil] at hnext
    refine ⟨String.ofList literal, ?_⟩
    rw [Scanner.ofText, String.toList_ofList, hnext]
  refine ⟨⟨?_, hwrite⟩, ⟨?_, fun h => ?_⟩⟩
  · rintro ⟨sql, h⟩
    exact getLast?_of_next_text h
  · rintro ⟨s, h⟩
    exact getLast?_of_next_text h
  · obtain ⟨sql, hsql⟩ := hwrite h
    exact ⟨_, hsql⟩

/-! ## Doubled quotes -/

/-- No backslash stands in front of a quote, the closing one behind the text included. -/
def Quotable (s : List Char) : Prop := ¬ ['\\', '\''] <:+: s ++ ['\'']

instance (s : List Char) : Decidable (Quotable s) := inferInstanceAs (Decidable (¬ _))

theorem quotable_nil : Quotable [] := by decide

theorem quotable_cons {c : Char} {s : List Char} :
    Quotable (c :: s) ↔ (c = '\\' → ∃ d ∈ s.head?, d ≠ '\'') ∧ Quotable s := by
  have hfront : ['\\', '\''] <+: c :: (s ++ ['\'']) ↔ c = '\\' ∧ ∀ d ∈ s.head?, d = '\'' := by
    cases s <;> simp [List.cons_prefix_cons, eq_comm]
  rw [Quotable, Quotable, List.cons_append, List.infix_cons_iff, not_or, hfront]
  cases s <;> simp

/-- What is written for a text with its quotes doubled stands for that text unless a backslash turns one
of the quotes into part of an escape. -/
theorem textBody_doubleQuotes_iff {s : List Char} :
    TextBody s (doubleQuotes '\'' s) ↔ Quotable s := by
  induction s with
  | nil => exact iff_of_true .nil quotable_nil
  | cons c s ih =>
    rw [quotable_cons, ← ih]
    by_cases hc : c = '\''
    · subst hc
      have hd : doubleQuotes '\'' ('\'' :: s) = '\'' :: '\'' :: doubleQuotes '\'' s := by
        simp [doubleQuotes]
      rw [hd]
      constructor
      · intro h
        cases h with
        | doubled h => exact ⟨fun hc => absurd hc (by decide), h⟩
        | plain hc => exact absurd rfl hc
      · rintro ⟨-, h⟩
        exact .doubled h
    · have hd : doubleQuotes '\'' (c :: s) = c :: doubleQuotes '\'' s := by simp [doubleQuotes, hc]
      have hhead : (doubleQuotes '\'' s).head? = s.head? := by
        cases s with
        | nil => rfl
        | cons d s => by_cases hq : d = '\'' <;> simp [doubleQuotes, hq]
      rw [hd, ← hhead]
      generalize doubleQuotes '\'' s = body
      constructor
      · intro h
        cases h with
        | doubled => exact absurd rfl hc
        | plain _ hb h => exact ⟨hb, h⟩
      · rintro ⟨hb, h⟩
        exact .plain hc hb h

/-- Each quote of a text takes two characters, whichever way it is escaped. -/
theorem length_of_textBody {s body : List Char} (h : TextBody s body) :
    body.length = s.length + s.count '\'' := by
  induction h with
  | nil => rfl
  | escaped _ ih | doubled _ ih =>
    simp only [List.length_cons, List.count_cons_self, ih]
    omega
  | plain hc _ _ ih =>
    rw [List.length_cons, List.length_cons, List.count_cons_of_ne hc, ih, Nat.add_right_comm]

theorem length_doubleQuotes (quote : Char) (s : List Char) :
    (doubleQuotes quote s).length = s.length + s.count quote := by
  induction s with
  | nil => rfl
  | cons c s ih =>
    by_cases hc : c = quote <;> simp [doubleQuotes, hc] at ih ⊢ <;> omega

/-- A text between quotes, its own quotes doubled. -/
def doubledLiteral (v : String) : String :=
  String.ofList ('\'' :: doubleQuotes '\'' v.toList ++ ['\''])

theorem toList_doubledLiteral (v : String) :
    (doubledLiteral v).toList = '\'' :: doubleQuotes '\'' v.toList ++ ['\''] :=
  String.toList_ofList

theorem spells_doubledLiteral {v : String} (h : Quotable v.toList) :
    Spells (.text v) (doubledLiteral v).toList := by
  rw [toList_doubledLiteral]
  exact .text (textBody_doubleQuotes_iff.mpr h)

/-- Both ways to write the text take as many characters, so the literal ends where the text does. -/
theorem quotable_of_next {s u : Scanner} {v : String}
    (hs : skipGap s.rest = skipGap (doubledLiteral v).toList) (h : s.next = (.ok (.text v), u)) :
    Quotable v.toList := by
  obtain ⟨body, r, hg, hb, -, -⟩ := next_eq_text_iff.mp h
  have hopen : skipGap s.rest = '\'' :: doubleQuotes '\'' v.toList ++ ['\''] := by
    rw [hs, toList_doubledLiteral]
    exact skipGap_cons (by decide) fun h => absurd h (by decide)
  rw [hopen] at hg
  have hbody : doubleQuotes '\'' v.toList ++ ['\''] = body ++ '\'' :: r := (List.cons.inj hg).2
  have hlength : (doubleQuotes '\'' v.toList).length = body.length := by
    rw [length_doubleQuotes, length_of_textBody hb]
  obtain ⟨rfl, -⟩ := List.append_inj hbody hlength
  exact textBody_doubleQuotes_iff.mp hb

/-! ## Whole texts -/

theorem gives_of_tokens {sql : String} {ts : List Token}
    (h : tokens sql = .ok (ts ++ [.endOfInput])) : ∃ u, (Scanner.ofText sql).Gives ts u := by
  obtain ⟨us, u, hus, -, ht⟩ := tokens_eq_ok_iff.mp h
  obtain rfl := List.append_cancel_right ht
  exact ⟨u, hus⟩

theorem tokens_of_spaced_toList {sql : String} {ts : List Token} (h : Spaced ts sql.toList) :
    tokens sql = .ok (ts ++ [.endOfInput]) := by
  have htokens := tokens_of_spaced h (.inl rfl) (.inl rfl)
  rwa [List.nil_append, List.append_nil, String.ofList_toList] at htokens

theorem tokens_doubledLiteral_iff (v : String) :
    tokens (doubledLiteral v) = .ok [.text v, .endOfInput] ↔ Quotable v.toList := by
  constructor
  · intro h
    have htokens : tokens (doubledLiteral v) = .ok ([.text v] ++ [.endOfInput]) := h
    obtain ⟨u, hu⟩ := gives_of_tokens htokens
    obtain ⟨r, hnext, -⟩ := Scanner.gives_cons hu
    refine quotable_of_next ?_ hnext
    rw [Scanner.ofText]
  · intro h
    exact tokens_of_spaced_toList (.one (spells_doubledLiteral h))

/-- Behind SELECT the literal is read as it is alone. -/
theorem tokens_select_doubledLiteral_iff (v : String) :
    tokens ("SELECT " ++ doubledLiteral v) = .ok [.keyword .SELECT, .text v, .endOfInput] ↔
      Quotable v.toList := by
  have hselect : Spells (.keyword .SELECT) "SELECT".toList := .keyword (inSomeCase_self _)
  have htext : ("SELECT " ++ doubledLiteral v).toList =
      "SELECT".toList ++ [' '] ++ (doubledLiteral v).toList := String.toList_append
  constructor
  · intro h
    have htokens : tokens ("SELECT " ++ doubledLiteral v) =
        .ok ([.keyword .SELECT, .text v] ++ [.endOfInput]) := h
    obtain ⟨u, hu⟩ := gives_of_tokens htokens
    obtain ⟨r, hfirst, -, hmore⟩ := Scanner.gives_cons hu
    obtain ⟨r', hsecond, -⟩ := Scanner.gives_cons hmore
    have hstops := separator_blank.stops (doubledLiteral v).toList
    have hnext := next_of_spells hselect hstops ("SELECT " ++ doubledLiteral v).toList.length
    rw [← List.append_assoc, ← htext] at hnext
    obtain rfl := congrArg Prod.snd (hnext.symm.trans hfirst)
    refine quotable_of_next ?_ hsecond
    rw [skipGap, afterGap_filler separator_blank.filler, skipGap]
  · intro h
    have hspaced : Spaced [.keyword .SELECT, .text v] ("SELECT " ++ doubledLiteral v).toList := by
      rw [htext]
      exact .cons hselect separator_blank (.one (spells_doubledLiteral h))
    exact tokens_of_spaced_toList hspaced

end PullSql.Sql
