import Mathlib.Data.List.Induction
import PullSql.Proofs.Sql.Expressions

/-!
# Reading clauses

The readers of queries, definitions and insertions are sound and complete for their phrases. A clause
takes as much as it can, so each comes with the tokens that it would go on with (`ItemStops`,
`SourceStops`, `ColumnStops`). An item `name.*` is seen by its first three tokens, which no expression
begins with (`not_star`).
-/

namespace PullSql.Sql

open Grammar Reader

/-! ## Beginnings of expressions -/

namespace Grammar

variable {level : Level} {n m : Nat} {ts : List Token} {e : Expr}

theorem exists_cons_of_exprPhrase (h : ExprPhrase level n ts e m) :
    ∃ tok us, ts = tok :: us ∧ tok ≠ .mark .asterisk := by
  induction h with
  | left _ _ _ ih _ | pow _ _ ih _ =>
    obtain ⟨tok, us, rfl, htok⟩ := ih
    exact ⟨tok, _, rfl, htok⟩
  | tighter _ _ ih => exact ih
  | negate | integer | double | text | parameter | field | qualified | parens =>
    exact ⟨_, _, rfl, by simp⟩

/-- The tokens of an operand and an operator that begin like a qualified name: the dot stands in the
operand. -/
theorem dot_in_operand {us vs : List Token} {name : String} {mark : Mark}
    (ha : ExprPhrase level n ts e m) (hm : mark ≠ .dot)
    (h : ts ++ .mark mark :: us = .identifier name :: .mark .dot :: vs) :
    ∃ ws, ts = .identifier name :: .mark .dot :: ws ∧ vs = ws ++ .mark mark :: us := by
  obtain ⟨tok, ts, rfl, -⟩ := exists_cons_of_exprPhrase ha
  rw [List.cons_append, List.cons.injEq] at h
  obtain ⟨rfl, h⟩ := h
  cases ts with
  | nil =>
    rw [List.nil_append, List.cons.injEq] at h
    exact absurd (Token.mark.inj h.1) hm
  | cons tok ts =>
    rw [List.cons_append, List.cons.injEq] at h
    obtain ⟨rfl, h⟩ := h
    exact ⟨ts, rfl, h.symm⟩

/-- Behind a name and a dot an expression goes on with a name. -/
theorem identifier_of_dot (h : ExprPhrase level n ts e m) {name : String} {us : List Token}
    (hts : ts = .identifier name :: .mark .dot :: us) :
    ∃ field vs, us = .identifier field :: vs := by
  induction h generalizing us with
  | left hop ha _ ih _ =>
    obtain ⟨ws, hws, rfl⟩ := dot_in_operand ha (by cases hop <;> decide) hts
    obtain ⟨field, vs, rfl⟩ := ih hws
    exact ⟨field, _, rfl⟩
  | pow ha _ ih _ =>
    obtain ⟨ws, hws, rfl⟩ := dot_in_operand ha (by decide) hts
    obtain ⟨field, vs, rfl⟩ := ih hws
    exact ⟨field, _, rfl⟩
  | tighter _ _ ih => exact ih hts
  | qualified qualifier field =>
    cases hts
    exact ⟨field, [], rfl⟩
  | negate | integer | double | text | parameter | field | parens => cases hts

/-- An expression that is at its end does not begin `name.*`. -/
theorem not_star (h : ExprPhrase .sum n ts e m) {rest us : List Token}
    (hr : Stops .sum (rest.headD .endOfInput)) (name : String) :
    ts ++ rest ≠ .identifier name :: .mark .dot :: .mark .asterisk :: us := by
  intro heq
  obtain ⟨tok, vs, rfl, -⟩ := exists_cons_of_exprPhrase h
  rw [List.cons_append, List.cons.injEq] at heq
  obtain ⟨rfl, heq⟩ := heq
  cases vs with
  | nil =>
    rw [List.nil_append] at heq
    rw [heq] at hr
    exact hr .dot (by decide) rfl
  | cons tok vs =>
    rw [List.cons_append, List.cons.injEq] at heq
    obtain ⟨rfl, heq⟩ := heq
    obtain ⟨field, ws, rfl⟩ := identifier_of_dot h rfl
    cases heq

end Grammar

namespace Reader

variable {d : Nat}

/-! ## Queries -/

theorem sound_selectItem : Sound selectItem ItemPhrase := by
  intro s item t h
  rcases (reads_choice Token.noConfusion).mp h with ⟨u, rfl, h1⟩ | ⟨-, h1⟩
  · obtain ⟨rfl, rfl⟩ := reads_pure.mp h1
    exact ⟨[_], rfl, .all⟩
  · obtain ⟨v, w, hv, h2⟩ := reads_bind.mp h1
    obtain ⟨rfl, rfl⟩ := reads_get.mp hv
    split at h2
    · rename_i name rest hrest
      obtain ⟨_, x, hx, h3⟩ := reads_bind.mp h2
      obtain ⟨rfl, rfl⟩ := reads_pure.mp h3
      obtain rfl := reads_set.mp hx
      exact ⟨[_, _, _], hrest, .allOf name⟩
    · obtain ⟨e, x, he, h3⟩ := reads_bind.mp h2
      obtain ⟨name?, y, hname, h4⟩ := reads_bind.mp h3
      obtain ⟨rfl, rfl⟩ := reads_pure.mp h4
      obtain ⟨ts, hts, he⟩ := sound_expr he
      rcases reads_identifierAfter?.mp hname with ⟨⟨-, rfl⟩, rfl⟩ | ⟨name, rfl, rfl⟩
      · exact ⟨ts, hts, .bare he⟩
      · exact ⟨ts ++ [.keyword .AS, .identifier name], by simp [hts], .named he name⟩

/-- What an item of a select list does not go on with. -/
def ItemStops (tok : Token) : Prop := Stops .sum tok ∧ tok ≠ .keyword .AS

/-- An expression is not taken for `*` or `name.*`. -/
theorem reads_selectItem_expr {n k m : Nat} {ts us rest : List Token} {e : Expr}
    {name? : Option String} (he : ExprPhrase .sum n ts e k)
    (hr : Stops .sum ((us ++ rest).headD .endOfInput))
    (hname : Reads (identifierAfter? .AS) ⟨us ++ rest, k⟩ name? ⟨rest, m⟩) :
    Reads selectItem ⟨ts ++ (us ++ rest), n⟩ (.expr e name?) ⟨rest, m⟩ := by
  have hstar : Stream.current ⟨ts ++ (us ++ rest), n⟩ ≠ .mark .asterisk := by
    obtain ⟨tok, vs, rfl, htok⟩ := exists_cons_of_exprPhrase he
    exact htok
  refine reads_bind.mpr ⟨false, _, reads_accept_false.mpr ⟨hstar, rfl⟩, ?_⟩
  refine reads_bind.mpr ⟨_, _, reads_get.mpr ⟨rfl, rfl⟩, ?_⟩
  split
  · rename_i heq
    exact absurd heq (not_star he hr _)
  · refine reads_bind.mpr ⟨e, ⟨us ++ rest, k⟩, ?_, ?_⟩
    · exact complete_expr he (Nat.lt_succ_self _) _ hr
    · exact reads_bind.mpr ⟨name?, _, hname, reads_pure.mpr ⟨rfl, rfl⟩⟩

theorem complete_selectItem : Complete d selectItem ItemPhrase ItemStops := by
  intro n ts item m h _ rest ⟨hr, has⟩
  cases h with
  | all => rfl
  | allOf name => rfl
  | @bare _ _ ts e he =>
    have hnone : Reads (identifierAfter? .AS) ⟨rest, m⟩ none ⟨rest, m⟩ :=
      reads_identifierAfter?.mpr (.inl ⟨⟨has, rfl⟩, rfl⟩)
    show Reads selectItem ⟨ts ++ ([] ++ rest), n⟩ _ _
    exact reads_selectItem_expr he hr hnone
  | named he name =>
    have hstop : Stops .sum (.keyword .AS) := by decide
    rw [List.append_assoc]
    exact reads_selectItem_expr he hstop (reads_identifierAfter?.mpr (.inr ⟨name, rfl, rfl⟩))

theorem complete_items :
    Complete d (separatedBy .comma selectItem) (Separated .comma ItemPhrase) fun tok =>
      tok ≠ .mark .comma ∧ ItemStops tok :=
  complete_separatedBy complete_selectItem ⟨by decide, by decide⟩

theorem sound_source : Sound source SourcePhrase := by
  intro s x t h
  obtain ⟨relation, u, hu, h1⟩ := reads_bind.mp h
  obtain ⟨name?, v, hv, h2⟩ := reads_bind.mp h1
  obtain rfl := reads_identifier.mp hu
  rcases reads_identifierAfter?.mp hv with ⟨⟨-, rfl⟩, rfl⟩ | ⟨name, rfl, rfl⟩
  · have h3 := reads_current_bind.mp h2
    split at h3
    · rename_i name hname
      obtain ⟨rfl, rfl⟩ := (reads_advance_pure hname Token.noConfusion).mp h3
      exact ⟨[_, _], rfl, .named relation name⟩
    · obtain ⟨rfl, rfl⟩ := reads_pure.mp h3
      exact ⟨[_], rfl, .bare relation⟩
  · obtain ⟨rfl, rfl⟩ := reads_pure.mp h2
    exact ⟨[_, _, _], rfl, .namedAs relation name⟩

/-- What an entry of a FROM list does not go on with. -/
def SourceStops (tok : Token) : Prop := tok ≠ .keyword .AS ∧ ∀ name, tok ≠ .identifier name

theorem complete_source : Complete d source SourcePhrase SourceStops := by
  intro n ts x m h _ rest ⟨has, hname⟩
  cases h with
  | bare relation =>
    have hnone : Reads (identifierAfter? .AS) ⟨rest, n⟩ none ⟨rest, n⟩ :=
      reads_identifierAfter?.mpr (.inl ⟨⟨has, rfl⟩, rfl⟩)
    refine reads_bind.mpr ⟨relation, ⟨rest, n⟩, reads_identifier.mpr rfl, ?_⟩
    refine reads_bind.mpr ⟨none, _, hnone, reads_current_bind.mpr ?_⟩
    split
    · rename_i name hcurrent
      exact absurd hcurrent (hname name)
    · exact reads_pure.mpr ⟨rfl, rfl⟩
  | named relation name => rfl
  | namedAs relation name => rfl

theorem complete_sources :
    Complete d (separatedBy .comma source) (Separated .comma SourcePhrase) fun tok =>
      tok ≠ .mark .comma ∧ SourceStops tok :=
  complete_separatedBy complete_source ⟨by decide, by simp⟩

/-- What stands behind a statement. -/
def Ends (tok : Token) : Prop := tok = .mark .semicolon ∨ tok = .endOfInput

theorem sound_select : Sound select (After (.keyword .SELECT) SelectPhrase) := by
  intro s query t h
  obtain ⟨items, u, hi, h1⟩ := reads_bind.mp h
  obtain ⟨ts, hts, hi⟩ := sound_separatedBy sound_selectItem hi
  rcases (reads_choice Token.noConfusion).mp h1 with ⟨v, rfl, h2⟩ | ⟨-, h2⟩
  · obtain ⟨sources, hs, rfl⟩ := reads_map.mp h2
    obtain ⟨us, hus, hs⟩ := sound_separatedBy sound_source hs
    exact ⟨ts ++ .keyword .FROM :: us, by simp [hts, hus], .from hi hs⟩
  · obtain ⟨rfl, rfl⟩ := reads_pure.mp h2
    exact ⟨ts, hts, .bare hi⟩

theorem Ends.itemStops {tok : Token} (h : Ends tok) : ItemStops tok := by
  rcases h with rfl | rfl <;> exact ⟨by decide, by decide⟩

theorem Ends.sourceStops {tok : Token} (h : Ends tok) : SourceStops tok := by
  rcases h with rfl | rfl <;> exact ⟨by decide, by simp⟩

theorem Ends.ne_mark {tok : Token} {mark : Mark} (h : Ends tok) (hm : mark ≠ .semicolon) :
    tok ≠ .mark mark := by
  rcases h with rfl | rfl <;> simp [hm.symm]

theorem Ends.ne_keyword {tok : Token} {word : Keyword} (h : Ends tok) : tok ≠ .keyword word := by
  rcases h with rfl | rfl <;> simp

theorem complete_select : Complete d select (After (.keyword .SELECT) SelectPhrase) Ends := by
  intro n ts query m h hd rest hr
  have hcomma : rest.headD .endOfInput ≠ .mark .comma := hr.ne_mark (by decide)
  cases h with
  | bare hi =>
    refine reads_bind.mpr ⟨_, _, complete_items hi hd rest ⟨hcomma, hr.itemStops⟩, ?_⟩
    exact reads_bind.mpr ⟨false, _, reads_accept_false.mpr ⟨hr.ne_keyword, rfl⟩,
      reads_pure.mpr ⟨rfl, rfl⟩⟩
  | @«from» _ k _ us vs items sources hi hs =>
    have hd : (us ++ .keyword .FROM :: vs).length < d := hd
    have hlen : us.length < d ∧ vs.length < d := by
      simp only [List.length_append, List.length_cons] at hd
      omega
    have hfrom : ItemStops (.keyword .FROM) := ⟨by decide, by decide⟩
    show Reads select ⟨us ++ .keyword .FROM :: vs ++ rest, n⟩ _ _
    rw [List.append_assoc]
    refine reads_bind.mpr ⟨items, ⟨.keyword .FROM :: vs ++ rest, k⟩, ?_, ?_⟩
    · exact complete_items hi hlen.1 _ ⟨Token.noConfusion, hfrom⟩
    · refine reads_bind.mpr ⟨true, ⟨vs ++ rest, k⟩, ?_, ?_⟩
      · exact (reads_accept_true Token.noConfusion).mpr rfl
      · exact reads_map.mpr ⟨sources, complete_sources hs hlen.2 rest ⟨hcomma, hr.sourceStops⟩, rfl⟩

/-! ## Definitions -/

section Options

variable {tok : Token} {how : Reader ColumnOption}

theorem sound_columnOption (ho : columnOption? tok = some how) :
    Sound how (After tok OptionPhrase) := by
  intro s option t h
  unfold columnOption? at ho
  split at ho <;> cases ho
  · obtain ⟨e, he, rfl⟩ := reads_map.mp h
    obtain ⟨ts, hts, he⟩ := sound_expr he
    exact ⟨ts, hts, .default he⟩
  · obtain ⟨_, u, hu, h⟩ := reads_bind.mp h
    obtain ⟨rfl, rfl⟩ := reads_pure.mp h
    obtain rfl := (reads_expect Token.noConfusion).mp hu
    exact ⟨[_], rfl, .primaryKey⟩
  · obtain ⟨rfl, rfl⟩ := reads_pure.mp h
    exact ⟨[], rfl, .autoIncrement⟩
  · obtain ⟨text, htext, rfl⟩ := reads_map.mp h
    obtain rfl := reads_textLiteral.mp htext
    exact ⟨[_], rfl, .comment text⟩

theorem complete_columnOption (ho : columnOption? tok = some how) :
    Complete d how (After tok OptionPhrase) (Stops .sum) := by
  intro n ts option m h hd rest hr
  cases h with
  | default he =>
    cases ho
    exact reads_map.mpr ⟨_, complete_expr he hd rest hr, rfl⟩
  | primaryKey | autoIncrement | comment =>
    cases ho
    rfl

theorem openedBy_columnOption : OpenedBy columnOption? OptionPhrase := by
  intro n ts option m h
  cases h <;> exact ⟨_, _, _, rfl, rfl⟩

theorem stops_of_columnOption (ho : columnOption? tok = some how) : Stops .sum tok := by
  unfold columnOption? at ho
  split at ho <;> first | decide | cases ho

end Options

theorem foldl_apply_eq_columnOf (name type : String) (options : List ColumnOption) :
    options.foldl ColumnOption.apply ⟨name, type, none, false, false, none⟩ =
      columnOf name type options := by
  induction options using List.reverseRecOn with
  | nil => rfl
  | append_singleton options option ih =>
    rw [List.foldl_append, ih]
    cases option <;> simp [columnOf, ColumnOption.apply]

theorem sound_columnDef : Sound columnDef ColumnPhrase := by
  intro s column t h
  obtain ⟨name, u, hu, h1⟩ := reads_bind.mp h
  obtain ⟨type, v, hv, h2⟩ := reads_bind.mp h1
  obtain ⟨options, w, hw, h3⟩ := reads_bind.mp h2
  obtain ⟨rfl, rfl⟩ := reads_pure.mp h3
  obtain rfl := reads_identifier.mp hu
  obtain rfl := reads_identifier.mp hv
  obtain ⟨ts, hts, ho⟩ := sound_many rfl sound_columnOption hw
  rw [foldl_apply_eq_columnOf]
  exact ⟨_ :: _ :: ts, by rw [hts]; rfl, .column name type ho⟩

/-- What a column does not go on with. -/
def ColumnStops (tok : Token) : Prop := columnOption? tok = none ∧ Stops .sum tok

theorem complete_columnDef : Complete d columnDef ColumnPhrase ColumnStops := by
  intro n ts column m h hd rest hr
  cases h with
  | @column _ _ ts options name type ho =>
    have hlen : ts.length < d := by
      simp only [List.length_cons] at hd
      omega
    refine reads_bind.mpr ⟨name, ⟨.identifier type :: ts ++ rest, n⟩, reads_identifier.mpr rfl, ?_⟩
    refine reads_bind.mpr ⟨type, ⟨ts ++ rest, n⟩, reads_identifier.mpr rfl, ?_⟩
    refine reads_bind.mpr ⟨options, ⟨rest, m⟩, ?_, ?_⟩
    · exact complete_many openedBy_columnOption stops_of_columnOption complete_columnOption ho hlen
        rest hr
    · exact reads_pure.mpr ⟨foldl_apply_eq_columnOf name type options, rfl⟩

theorem complete_columns :
    Complete d (parenthesized columnDef) (Parenthesized ColumnPhrase) fun _ => True := by
  refine complete_parenthesized complete_columnDef ⟨rfl, by decide⟩ ⟨rfl, by decide⟩ ?_
  rintro n ts column m ⟨name, type, -⟩
  simp

theorem sound_createTable : Sound createTable (After (.keyword .CREATE) CreatePhrase) := by
  intro s definition t h
  obtain ⟨_, u, hu, h1⟩ := reads_bind.mp h
  obtain ⟨b, v, hb, h2⟩ := reads_bind.mp h1
  obtain rfl := (reads_expect Token.noConfusion).mp hu
  cases b with
  | true =>
    obtain ⟨_, w, hw, h3⟩ := reads_bind.mp h2
    obtain ⟨_, x, hx, h4⟩ := reads_bind.mp h3
    obtain ⟨table, y, hy, h5⟩ := reads_bind.mp h4
    obtain ⟨columns, hc, rfl⟩ := reads_map.mp h5
    obtain rfl := (reads_accept_true Token.noConfusion).mp hb
    obtain rfl := (reads_expect Token.noConfusion).mp hw
    obtain rfl := (reads_expect Token.noConfusion).mp hx
    obtain rfl := reads_identifier.mp hy
    obtain ⟨ts, hts, hc⟩ := sound_parenthesized sound_columnDef hc
    exact ⟨_ :: _ :: _ :: _ :: _ :: ts, by rw [hts]; rfl, .ifNotExists table hc⟩
  | false =>
    obtain ⟨-, rfl⟩ := reads_accept_false.mp hb
    obtain ⟨table, w, hw, h3⟩ := reads_bind.mp h2
    obtain ⟨columns, hc, rfl⟩ := reads_map.mp h3
    obtain rfl := reads_identifier.mp hw
    obtain ⟨ts, hts, hc⟩ := sound_parenthesized sound_columnDef hc
    exact ⟨_ :: _ :: ts, by rw [hts]; rfl, .always table hc⟩

/-- The words in front of the columns are taken one by one, which the goals below compute. -/
theorem complete_createTable :
    Complete d createTable (After (.keyword .CREATE) CreatePhrase) fun _ => True := by
  intro n ts definition m h hd rest _
  cases h with
  | @always _ _ ts columns table hc =>
    have hlen : ts.length < d := by
      simp only [List.length_cons] at hd
      omega
    show Reads (CreateTable.mk table false <$> parenthesized columnDef) ⟨ts ++ rest, n⟩ _ _
    exact reads_map.mpr ⟨columns, complete_columns hc hlen rest trivial, rfl⟩
  | @ifNotExists _ _ ts columns table hc =>
    have hlen : ts.length < d := by
      simp only [List.length_cons] at hd
      omega
    show Reads (CreateTable.mk table true <$> parenthesized columnDef) ⟨ts ++ rest, n⟩ _ _
    exact reads_map.mpr ⟨columns, complete_columns hc hlen rest trivial, rfl⟩

/-! ## Insertions -/

theorem sound_identifier : Sound identifier NamePhrase := by
  intro s name t h
  obtain rfl := reads_identifier.mp h
  exact ⟨[_], rfl, .name name⟩

theorem complete_identifier : Complete d identifier NamePhrase fun _ => True := by
  intro n ts name m h _ rest _
  cases h
  rfl

theorem complete_names :
    Complete d (parenthesized identifier) (Parenthesized NamePhrase) fun _ => True := by
  refine complete_parenthesized (G := fun _ => True) complete_identifier trivial trivial ?_
  rintro n ts name m ⟨_⟩
  simp

theorem sound_valueRow : Sound valueRow RowPhrase := by
  intro s values t h
  obtain ⟨_, u, hu, h1⟩ := reads_bind.mp h
  obtain ⟨_, v, hv, h2⟩ := reads_bind.mp h1
  obtain ⟨_, w, hw, h3⟩ := reads_bind.mp h2
  obtain ⟨rfl, rfl⟩ := reads_pure.mp h3
  obtain rfl := (reads_expect Token.noConfusion).mp hu
  obtain rfl := (reads_expect Token.noConfusion).mp hw
  obtain ⟨ts, hts, hvs⟩ := sound_separatedBy sound_expr hv
  refine ⟨.mark .leftParen :: ts ++ [.mark .rightParen], ?_, .row hvs⟩
  simp [hts]

theorem complete_valueRow : Complete d valueRow RowPhrase fun _ => True := by
  intro n ts values m h hd rest _
  cases h with
  | @row _ _ ts _ hv =>
    have hlen : ts.length < d := by
      simp only [List.length_append, List.length_cons] at hd
      omega
    have hcomma : Stops .sum (.mark .comma) := by decide
    have hstop : Stops .sum (.mark .rightParen) := by decide
    rw [List.append_assoc]
    show Reads (do let values ← separatedBy .comma expr; expectMark .rightParen; return values)
      ⟨ts ++ .mark .rightParen :: rest, n⟩ _ _
    refine reads_bind.mpr ⟨values, ⟨.mark .rightParen :: rest, m⟩, ?_, ?_⟩
    · exact complete_separatedBy complete_expr hcomma hv hlen _ ⟨by simp, hstop⟩
    · exact reads_bind.mpr ⟨(), ⟨rest, m⟩, (reads_expect Token.noConfusion).mpr rfl,
        reads_pure.mpr ⟨rfl, rfl⟩⟩

theorem sound_insert : Sound insert (After (.keyword .INSERT) InsertPhrase) := by
  intro s insertion t h
  obtain ⟨_, u, hu, h1⟩ := reads_bind.mp h
  obtain ⟨table, v, hv, h2⟩ := reads_bind.mp h1
  obtain ⟨columns, w, hw, h3⟩ := reads_bind.mp h2
  obtain ⟨_, x, hx, h4⟩ := reads_bind.mp h3
  obtain ⟨rows, hr, rfl⟩ := reads_map.mp h4
  obtain rfl := (reads_expect Token.noConfusion).mp hu
  obtain rfl := reads_identifier.mp hv
  obtain rfl := (reads_expect Token.noConfusion).mp hx
  obtain ⟨ts, hts, hc⟩ := sound_parenthesized sound_identifier hw
  obtain ⟨us, hus, hr⟩ := sound_separatedBy sound_valueRow hr
  refine ⟨.keyword .INTO :: .identifier table :: ts ++ .keyword .VALUES :: us, ?_,
    .insert table hc hr⟩
  simp [hts, hus]

theorem complete_insert :
    Complete d insert (After (.keyword .INSERT) InsertPhrase) fun tok => tok ≠ .mark .comma := by
  intro n ts insertion m h hd rest hr
  cases h with
  | @insert _ k _ ts us columns rows table hc hrows =>
    have hd : (.keyword .INTO :: .identifier table :: ts ++ .keyword .VALUES :: us).length < d := hd
    have hlen : ts.length < d ∧ us.length < d := by
      simp only [List.length_append, List.length_cons] at hd
      omega
    show Reads (do
        let columns ← parenthesized identifier
        expectKeyword .VALUES
        Insert.mk table columns <$> separatedBy .comma valueRow)
      ⟨ts ++ .keyword .VALUES :: us ++ rest, n⟩ _ _
    rw [List.append_assoc]
    refine reads_bind.mpr ⟨columns, ⟨.keyword .VALUES :: us ++ rest, k⟩, ?_, ?_⟩
    · exact complete_names hc hlen.1 _ trivial
    refine reads_bind.mpr ⟨(), ⟨us ++ rest, k⟩, (reads_expect Token.noConfusion).mpr rfl, ?_⟩
    refine reads_map.mpr ⟨rows, ?_, rfl⟩
    exact complete_separatedBy (G := fun _ => True) complete_valueRow trivial hrows hlen.2 rest
      ⟨hr, trivial⟩

end Reader

end PullSql.Sql
