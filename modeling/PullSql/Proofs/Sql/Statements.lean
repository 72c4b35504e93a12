import PullSql.Proofs.Sql.Clauses
import PullSql.Proofs.Text.Cases

/-!
# Reading statements

The reader of statements accepts the grammar and builds its trees (`readStatement_eq_ok_iff_whole`).
What it takes is sound clause by clause. For the converse, every clause ends where the statement does,
in front of a semicolon or the end of the input.
-/

namespace PullSql.Sql

open Grammar Reader

namespace Reader

/-! ## The word TABLES -/

theorem reads_tablesWord {s t : Stream} {u : Unit} :
    Reads tablesWord s u t ↔
      ∃ word, IsTables word ∧ s = ⟨.identifier word :: t.rest, t.parameters⟩ := by
  have hword : ∀ {word : String}, IsTables word ↔
      word.toList.map Char.toUpper = "TABLES".toList := (Text.map_toUpper_eq_iff (by simp)).symm
  have hpick : ∀ tok, tablesOf? tok = some u ↔ ∃ word, IsTables word ∧ tok = .identifier word := by
    intro tok
    cases tok <;> simp [tablesOf?, hword]
  refine (reads_takeOf rfl).trans ?_
  simp only [hpick]
  constructor
  · rintro ⟨tok, ⟨word, hw, rfl⟩, hs⟩
    exact ⟨word, hw, hs⟩
  · rintro ⟨word, hw, hs⟩
    exact ⟨_, ⟨word, hw, rfl⟩, hs⟩

/-! ## Statements -/

theorem sound_bareStatement : Sound bareStatement StatementPhrase := by
  intro s statement t h
  rcases (reads_choice Token.noConfusion).mp h with ⟨u, rfl, h1⟩ | ⟨-, h1⟩
  · obtain ⟨query, hq, rfl⟩ := reads_map.mp h1
    obtain ⟨ts, hts, hq⟩ := sound_select hq
    exact ⟨_ :: ts, by rw [hts]; rfl, .select hq⟩
  rcases (reads_choice Token.noConfusion).mp h1 with ⟨u, rfl, h2⟩ | ⟨-, h2⟩
  · obtain ⟨_, v, hv, h3⟩ := reads_bind.mp h2
    obtain ⟨rfl, rfl⟩ := reads_pure.mp h3
    obtain ⟨word, hw, rfl⟩ := reads_tablesWord.mp hv
    exact ⟨[_, _], rfl, .showTables hw⟩
  rcases (reads_choice Token.noConfusion).mp h2 with ⟨u, rfl, h3⟩ | ⟨-, h3⟩
  · obtain ⟨definition, hd, rfl⟩ := reads_map.mp h3
    obtain ⟨ts, hts, hd⟩ := sound_createTable hd
    exact ⟨_ :: ts, by rw [hts]; rfl, .createTable hd⟩
  rcases (reads_choice Token.noConfusion).mp h3 with ⟨u, rfl, h4⟩ | ⟨-, h4⟩
  · obtain ⟨insertion, hi, rfl⟩ := reads_map.mp h4
    obtain ⟨ts, hts, hi⟩ := sound_insert hi
    exact ⟨_ :: ts, by rw [hts]; rfl, .insert hi⟩
  · exact absurd h4 not_reads_fail

theorem complete_bareStatement {d : Nat} : Complete d bareStatement StatementPhrase Ends := by
  intro n ts statement m h hd rest hr
  cases h with
  | select h =>
    have h' : ∃ us, ts = .keyword .SELECT :: us := by cases h <;> exact ⟨_, rfl⟩
    obtain ⟨us, rfl⟩ := h'
    show Reads (Statement.select <$> select) ⟨us ++ rest, n⟩ _ _
    exact reads_map.mpr ⟨_, complete_select h (Nat.lt_of_succ_lt hd) rest hr, rfl⟩
  | @showTables _ word hw =>
    show Reads (do tablesWord; return Statement.showTables) ⟨.identifier word :: rest, n⟩ _ _
    exact reads_bind.mpr ⟨(), ⟨rest, n⟩, reads_tablesWord.mpr ⟨word, hw, rfl⟩,
      reads_pure.mpr ⟨rfl, rfl⟩⟩
  | createTable h =>
    have h' : ∃ us, ts = .keyword .CREATE :: us := by cases h <;> exact ⟨_, rfl⟩
    obtain ⟨us, rfl⟩ := h'
    show Reads (Statement.createTable <$> createTable) ⟨us ++ rest, n⟩ _ _
    exact reads_map.mpr ⟨_, complete_createTable h (Nat.lt_of_succ_lt hd) rest trivial, rfl⟩
  | insert h =>
    have h' : ∃ us, ts = .keyword .INSERT :: us := by cases h; exact ⟨_, rfl⟩
    obtain ⟨us, rfl⟩ := h'
    show Reads (Statement.insert <$> insert) ⟨us ++ rest, n⟩ _ _
    exact reads_map.mpr ⟨_, complete_insert h (Nat.lt_of_succ_lt hd) rest (hr.ne_mark (by decide)), rfl⟩

/-! ## The end of a statement -/

/-- A statement with its optional semicolon. -/
def ClosedPhrase : Phrase Statement := fun n ts statement m =>
  ∃ us, StatementPhrase n us statement m ∧ (ts = us ∨ ts = us ++ [Token.mark .semicolon])

theorem noEnd_closedPhrase : NoEnd ClosedPhrase := by
  rintro n ts a m ⟨us, ha, rfl | rfl⟩
  · exact noEnd_statementPhrase ha
  · simp [noEnd_statementPhrase ha]

/-- Reads a statement and an optional semicolon. -/
def closedStatement : Reader Statement := do
  let s ← bareStatement
  let _ ← accept (.mark .semicolon)
  return s

theorem statement_eq :
    statement = do let s ← closedStatement; expect .endOfInput; return s := by
  unfold statement closedStatement
  simp only [bind_assoc, pure_bind]

theorem sound_closedStatement : Sound closedStatement ClosedPhrase := by
  intro s a t h
  obtain ⟨a', u, ha, h1⟩ := reads_bind.mp h
  obtain ⟨b, v, hb, h2⟩ := reads_bind.mp h1
  obtain ⟨rfl, rfl⟩ := reads_pure.mp h2
  obtain ⟨ts, hts, ha⟩ := sound_bareStatement ha
  cases b with
  | true =>
    obtain rfl := (reads_accept_true Token.noConfusion).mp hb
    exact ⟨ts ++ [Token.mark .semicolon], by simp [hts], ts, ha, .inr rfl⟩
  | false =>
    obtain ⟨-, rfl⟩ := reads_accept_false.mp hb
    exact ⟨ts, hts, ts, ha, .inl rfl⟩

/-! ## Whole inputs -/

/-- Tokens that stand in front of the only end of the input are all the others. -/
theorem eq_of_append_end {body ts rest : List Token} (hb : Token.endOfInput ∉ body)
    (ht : Token.endOfInput ∉ ts) (hr : rest.headD .endOfInput = .endOfInput)
    (h : body ++ [.endOfInput] = ts ++ rest) : body = ts := by
  induction body generalizing ts with
  | nil =>
    cases ts with
    | nil => rfl
    | cons tok ts => exact absurd (List.mem_cons.mpr (.inl (List.cons.inj h).1)) ht
  | cons tok body ih =>
    cases ts with
    | nil =>
      rw [List.nil_append] at h
      rw [← h] at hr
      exact absurd (List.mem_cons.mpr (.inl hr.symm)) hb
    | cons tok' ts =>
      rw [List.cons_append, List.cons_append, List.cons.injEq] at h
      obtain ⟨rfl, h⟩ := h
      rw [List.mem_cons, not_or] at hb ht
      rw [ih hb.2 ht.2 h]

theorem reads_statement_iff_whole {body : List Token} (hb : Token.endOfInput ∉ body)
    (s : Statement) :
    (∃ t, Reads statement ⟨body ++ [.endOfInput], 0⟩ s t) ↔ Whole body s := by
  constructor
  · rintro ⟨t, h⟩
    rw [statement_eq] at h
    obtain ⟨s', u, hs, h1⟩ := reads_bind.mp h
    obtain ⟨_, v, hv, h2⟩ := reads_bind.mp h1
    obtain ⟨rfl, rfl⟩ := reads_pure.mp h2
    obtain ⟨ts, hts, hclosed⟩ := sound_closedStatement hs
    obtain rfl : body = ts :=
      eq_of_append_end hb (noEnd_closedPhrase hclosed) (current_of_reads_expect hv) hts
    obtain ⟨us, hus, hbody⟩ := hclosed
    exact ⟨us, _, hus, hbody⟩
  · rintro ⟨us, m, hs, rfl | rfl⟩
    · have hread := complete_bareStatement hs (Nat.lt_succ_self _) [.endOfInput] (.inr rfl)
      exact ⟨⟨[], m⟩, reads_bind.mpr ⟨s, ⟨[.endOfInput], m⟩, hread, rfl⟩⟩
    · have hread := complete_bareStatement hs (Nat.lt_succ_self _)
        [.mark .semicolon, .endOfInput] (.inl rfl)
      rw [List.append_assoc]
      exact ⟨⟨[], m⟩, reads_bind.mpr ⟨s, ⟨[.mark .semicolon, .endOfInput], m⟩, hread, rfl⟩⟩

end Reader

/-- **The grammar.** On tokens that end in their only end of the input, a reader that has read no
placeholder yet gives a statement exactly when the tokens in front of the end derive it. -/
theorem readStatement_eq_ok_iff_whole {body : List Token} (hb : Token.endOfInput ∉ body)
    (s : Statement) :
    (Stream.readStatement ⟨body ++ [.endOfInput], 0⟩).1 = .ok s ↔ Whole body s := by
  rw [← reads_statement_iff_whole hb]
  constructor
  · intro h
    exact ⟨_, Prod.ext h rfl⟩
  · rintro ⟨t, h⟩
    exact congrArg Prod.fst h

/-- A query with differences to the left, powers to the right and a sign that binds tighter. -/
theorem readStatement_eq_ok_iff_whole_of_query :
    let body : List Token :=
      [.keyword .SELECT, .identifier "t", .mark .dot, .mark .asterisk, .mark .comma,
        .identifier "a", .mark .minus, .mark .question, .mark .minus,
        .mark .minus, .mark .question, .mark .caret, .identifier "t", .mark .dot, .identifier "b",
        .mark .caret, .mark .question, .keyword .AS, .identifier "x",
        .keyword .FROM, .identifier "tables", .identifier "t", .mark .semicolon]
    let s : Statement := .select
      ⟨[.allOf "t",
        .expr (.binary .sub (.binary .sub (.field "a") (.parameter 0))
          (.binary .pow (.negate (.parameter 1)) (.binary .pow (.field "t.b") (.parameter 2))))
          (some "x")],
        some [⟨"tables", some "t"⟩]⟩
    (Stream.readStatement ⟨body ++ [.endOfInput], 0⟩).1 = .ok s ∧ Whole body s := by
  intro body s
  have hb : Token.endOfInput ∉ body := by decide
  have h : (Stream.readStatement ⟨body ++ [.endOfInput], 0⟩).1 = .ok s := rfl
  exact ⟨h, (readStatement_eq_ok_iff_whole hb s).mp h⟩

end PullSql.Sql
