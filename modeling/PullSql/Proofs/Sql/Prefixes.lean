import PullSql.Proofs.Sql.Locality
import PullSql.Proofs.Sql.Statements

/-!
# Where reading stops

A reader that fails stops at the first token with which its phrase cannot go on.

1. It does not stop too late. What it took begins a phrase, and the error names the next token
   (`Stuck`). This is shown reader by reader (`Viable`): what the parts that succeeded took are phrases,
   and the part that failed can be completed.
2. It does not stop too early. Reading sees no farther than the next token, so it fails on everything
   that begins with the same tokens (`fails_statement_of_current`).

Main statement: `readStatement_error_at_first_dead_token`.
-/

namespace PullSql.Sql

open Grammar Reader

namespace Reader

variable {α β γ : Type}

/-! ## Failing -/

/-- Reading from `s` fails with `e` and leaves `t`. -/
def Fails (r : Reader α) (s : Stream) (e : Error) (t : Stream) : Prop := outcome r s = (.error e, t)

section Steps

variable {s t : Stream} {e : Error}

@[simp] theorem not_fails_pure {a : α} : ¬ Fails (pure a) s e t := by
  intro h
  cases h

theorem fails_bind {r : Reader α} {f : α → Reader β} :
    Fails (r >>= f) s e t ↔ Fails r s e t ∨ ∃ a u, Reads r s a u ∧ Fails (f a) u e t := by
  unfold Fails Reads
  rw [outcome_bind]
  rcases outcome r s with ⟨e' | a, u⟩ <;> simp

theorem fails_bind_pure {r : Reader α} {f : α → β} :
    Fails (r >>= fun a => pure (f a)) s e t ↔ Fails r s e t := by
  rw [fails_bind]
  simp

theorem fails_map {r : Reader α} {f : α → β} : Fails (f <$> r) s e t ↔ Fails r s e t := by
  rw [map_eq_pure_bind, fails_bind_pure]

theorem fails_advance_bind {r : Reader α} :
    Fails (advance >>= fun _ => r) s e t ↔ Fails r s.advance e t := by
  show outcome (advance >>= fun _ => r) s = _ ↔ _
  rw [outcome_bind]
  rfl

theorem fails_current_bind {r : Token → Reader α} :
    Fails (current >>= r) s e t ↔ Fails (r s.current) s e t := by
  show outcome (current >>= r) s = _ ↔ _
  rw [outcome_bind]
  rfl

theorem fails_get_bind {r : Stream → Reader α} : Fails (get >>= r) s e t ↔ Fails (r s) s e t := by
  show outcome (get >>= r) s = _ ↔ _
  rw [outcome_bind]
  rfl

theorem not_fails_accept {tok : Token} : ¬ Fails (accept tok) s e t := by
  unfold accept
  rw [fails_current_bind]
  split
  · rw [fails_advance_bind]
    exact not_fails_pure
  · exact not_fails_pure

theorem fails_fail {expected : Expectation} :
    Fails (fail expected : Reader α) s e t ↔ .unexpectedToken s.current expected = e ∧ s = t := by
  show (Except.error (.unexpectedToken s.current expected), s) = (Except.error e, t) ↔ _
  rw [Prod.mk.injEq, Except.error.injEq]

theorem fails_expect {tok : Token} :
    Fails (expect tok) s e t ↔
      s.current ≠ tok ∧ .unexpectedToken s.current (.token tok) = e ∧ s = t := by
  unfold expect
  rw [fails_bind, Bool.exists_bool]
  simp only [not_fails_accept, reads_accept_false, fails_fail, not_fails_pure, and_assoc, false_or,
    Bool.false_eq_true, if_false, if_true, and_false, exists_false, or_false, ne_eq]
  constructor
  · rintro ⟨u, hu, rfl, he, rfl⟩
    exact ⟨hu, he, rfl⟩
  · rintro ⟨hu, he, rfl⟩
    exact ⟨s, hu, rfl, he, rfl⟩

/-- A token decides between two ways to go on. -/
theorem fails_choice {tok : Token} (ht : tok ≠ .endOfInput) {r q : Reader α} :
    Fails (do if ← accept tok then r else q) s e t ↔
      (∃ u : Stream, s = ⟨tok :: u.rest, u.parameters⟩ ∧ Fails r u e t) ∨
      s.current ≠ tok ∧ Fails q s e t := by
  rw [fails_bind, Bool.exists_bool, or_comm (a := ∃ u, Reads _ _ false u ∧ _)]
  simp [not_fails_accept, reads_accept_true ht, reads_accept_false]

end Steps

/-! ## Stopping in front of the wrong token -/

section Stuck

variable {s t u : Stream} {e : Error} {P : Phrase α} {Q : Phrase β} {r : Reader γ}

/-- What was taken from `s` up to `t` begins a phrase, and the error names the token in front of `t`. -/
def Stuck (P : Phrase α) (s : Stream) (e : Error) (t : Stream) : Prop :=
  (∃ expected, e = .unexpectedToken t.current expected) ∧
    ∃ pre ts a m, s.rest = pre ++ t.rest ∧ pre <+: ts ∧ P s.parameters ts a m

/-- A reader that fails stops in front of the wrong token. -/
def Viable (r : Reader α) (P : Phrase α) : Prop := ∀ ⦃s e t⦄, Fails r s e t → Stuck P s e t

/-- Behind tokens `ts`, what begins a phrase `Q` begins a phrase `P` together with them. -/
theorem Stuck.behind (h : Stuck Q u e t) (ts : List Token) (hts : s.rest = ts ++ u.rest)
    (hP : ∀ {us b m}, Q u.parameters us b m → ∃ vs a k, ts ++ us <+: vs ∧ P s.parameters vs a k) :
    Stuck P s e t := by
  obtain ⟨hfound, pre, us, b, m, hu, hus, hQ⟩ := h
  obtain ⟨vs, a, k, hvs, hP⟩ := hP hQ
  refine ⟨hfound, ts ++ pre, vs, a, k, by rw [hts, hu, List.append_assoc], ?_, hP⟩
  exact (List.prefix_append_right_inj ts |>.mpr hus).trans hvs

/-- Where nothing was taken before. -/
theorem Stuck.imp (h : Stuck Q s e t)
    (hP : ∀ {us b m}, Q s.parameters us b m → ∃ vs a k, us <+: vs ∧ P s.parameters vs a k) :
    Stuck P s e t :=
  h.behind [] rfl hP

/-- A reader that fails on its first token only. -/
def Prompt (r : Reader γ) : Prop :=
  ∀ ⦃s e t⦄, Fails r s e t → t = s ∧ ∃ expected, e = .unexpectedToken s.current expected

/-- Behind tokens `ts` with which a phrase can begin. -/
theorem Prompt.stuck {vs : List Token} {a : α} {k : Nat} (hr : Prompt r) (h : Fails r u e t)
    (ts : List Token) (hts : s.rest = ts ++ u.rest) (hvs : ts <+: vs) (hP : P s.parameters vs a k) :
    Stuck P s e t := by
  obtain ⟨rfl, hfound⟩ := hr h
  exact ⟨hfound, ts, vs, a, k, hts, hvs, hP⟩

theorem prompt_fail (expected : Expectation) : Prompt (fail expected : Reader γ) := by
  intro s e t h
  obtain ⟨rfl, rfl⟩ := fails_fail.mp h
  exact ⟨rfl, expected, rfl⟩

theorem prompt_expect (tok : Token) : Prompt (expect tok) := by
  intro s e t h
  obtain ⟨-, rfl, rfl⟩ := fails_expect.mp h
  exact ⟨rfl, _, rfl⟩

theorem prompt_takeOf (pick : Token → Option γ) (expected : Expectation) :
    Prompt (takeOf pick expected) := by
  intro s e t h
  have h1 := fails_current_bind.mp h
  split at h1
  · exact absurd (fails_advance_bind.mp h1) not_fails_pure
  · exact prompt_fail expected h1

theorem prompt_identifier : Prompt identifier := prompt_takeOf _ _

/-- Once the keyword is taken the identifier must follow. -/
theorem fails_identifierAfter? {word : Keyword} (h : Fails (identifierAfter? word) s e t) :
    ∃ u : Stream, s = ⟨.keyword word :: u.rest, u.parameters⟩ ∧ Fails identifier u e t := by
  rcases (fails_choice Token.noConfusion).mp h with ⟨u, hs, h1⟩ | ⟨-, h1⟩
  · exact ⟨u, hs, fails_map.mp h1⟩
  · exact absurd h1 not_fails_pure

end Stuck

/-! ## Repetition -/

section Many

variable {opens : Token → Option β} {item : β → Reader α} {P : Phrase α} {r : Reader α}

/-- The items in front of the one that fails are phrases. -/
theorem viable_manyWithin (he : opens .endOfInput = none)
    (hs : ∀ {tok how}, opens tok = some how → Sound (item how) (After tok P))
    (hi : ∀ {tok how}, opens tok = some how → Viable (item how) (After tok P)) (bound : Nat) :
    Viable (manyWithin opens item bound) (Many P) := by
  induction bound with
  | zero => exact fun _ _ _ h => absurd h not_fails_pure
  | succ bound ih =>
    intro s e t h
    rcases ho : opens s.current with _ | how
    · cases (outcome_manyWithin_none ho _).symm.trans h
    obtain ⟨_ | ⟨tok, rest⟩, n⟩ := s
    · exact absurd (he.symm.trans ho) (by simp)
    have h1 := (outcome_manyWithin_some ho bound).symm.trans h
    rcases fails_bind.mp h1 with h2 | ⟨a, u, ha, h2⟩
    · refine (hi ho h2).behind [tok] rfl fun {us b m} hb => ?_
      exact ⟨tok :: us ++ [], [b], m, List.prefix_append _ _, .cons hb .nil⟩
    · have h3 : Fails (manyWithin opens item bound) u e t := fails_map.mp h2
      obtain ⟨ts, hts, ha⟩ := hs ho ha
      have hts : rest = ts ++ u.rest := hts
      refine (ih h3).behind (tok :: ts) (by rw [hts]; rfl) fun {us as m} has => ?_
      exact ⟨tok :: ts ++ us, a :: as, m, List.prefix_rfl, .cons ha has⟩

theorem viable_many (he : opens .endOfInput = none)
    (hs : ∀ {tok how}, opens tok = some how → Sound (item how) (After tok P))
    (hi : ∀ {tok how}, opens tok = some how → Viable (item how) (After tok P)) :
    Viable (many opens item) (Many P) := by
  intro s e t h
  exact viable_manyWithin he hs hi _ (fails_get_bind.mp h)

theorem viable_separatedBy {sep : Mark} (hs : Sound r P) (hr : Viable r P) :
    Viable (separatedBy sep r) (Separated sep P) := by
  intro s e t h
  rcases fails_bind.mp h with h1 | ⟨a, u, ha, h1⟩
  · exact (hr h1).imp fun hb => ⟨_, _, _, List.prefix_rfl, .one hb⟩
  have hr' : ∀ {tok how}, (if tok = .mark sep then some () else none) = some how →
      Viable r (After tok (Behind sep P)) := by
    intro tok how ho s e t h
    obtain rfl := eq_mark_of_opens ho
    exact (hr h).imp fun hb => ⟨_, _, _, List.prefix_rfl, _, rfl, hb⟩
  have hmany := viable_many (by simp) (sound_behind hs) hr'
  obtain ⟨ts, hts, ha⟩ := hs ha
  refine (hmany (fails_map.mp h1)).behind ts hts fun {us as m} has => ?_
  exact ⟨ts ++ us, a :: as, m, List.prefix_rfl,
    separated_iff.mpr ⟨ts, us, _, a, as, rfl, rfl, ha, has⟩⟩

theorem viable_parenthesized (hs : Sound r P) (hr : Viable r P) :
    Viable (parenthesized r) (Parenthesized P) := by
  intro s e t h
  have hempty : Parenthesized P s.parameters [.mark .leftParen, .mark .rightParen] [] s.parameters :=
    .empty
  rcases fails_bind.mp h with h1 | ⟨_, u, hu, h1⟩
  · exact (prompt_expect _).stuck h1 [] rfl List.nil_prefix hempty
  obtain rfl := (reads_expect Token.noConfusion).mp hu
  have h2 := fails_current_bind.mp h1
  dsimp only at h2
  split at h2
  · obtain h3 | ⟨_, v, hv, h3⟩ := fails_bind.mp h2
    · exact absurd h3 not_fails_pure
    · obtain ⟨rfl, rfl⟩ := reads_pure.mp hv
      exact (prompt_expect _).stuck (fails_bind_pure.mp h3) [.mark .leftParen] rfl
        (List.prefix_append _ _) hempty
  · obtain h3 | ⟨as, v, has, h3⟩ := fails_bind.mp h2
    · refine (viable_separatedBy hs hr h3).behind [.mark .leftParen] rfl fun {us as m} hb => ?_
      exact ⟨.mark .leftParen :: us ++ [Token.mark .rightParen], as, m, List.prefix_append _ _, .items hb⟩
    · obtain ⟨ts, hts, has⟩ := sound_separatedBy hs has
      exact (prompt_expect _).stuck (fails_bind_pure.mp h3) (.mark .leftParen :: ts)
        (by rw [hts]; rfl) (List.prefix_append _ _) (.items has)

end Many

/-! ## Expressions -/

section Expressions

variable {nested operand : Reader Expr} {level : Level} {op? : Token → Option BinaryOp}

/-- Every level has an expression. -/
theorem exprPhrase_one (level : Level) (n : Nat) :
    ExprPhrase level n [.integer 1] (.number (.ofInt 1)) n := by
  have hatom : ExprPhrase .atom n [.integer 1] (.number (.ofInt 1)) n := .integer 1
  have hsign : ExprPhrase .sign n [.integer 1] (.number (.ofInt 1)) n := .tighter (by decide) hatom
  have hpower : ExprPhrase .power n [.integer 1] (.number (.ofInt 1)) n := .tighter (by decide) hsign
  have hproduct : ExprPhrase .product n [.integer 1] (.number (.ofInt 1)) n :=
    .tighter (by decide) hpower
  cases level with
  | atom => exact hatom
  | sign => exact hsign
  | power => exact hpower
  | product => exact hproduct
  | sum => exact .tighter (by decide) hproduct

theorem viable_fail_expression (level : Level) : Viable (fail .expression) (ExprPhrase level) := by
  intro s e t h
  exact (prompt_fail _).stuck h [] rfl List.nil_prefix (exprPhrase_one level _)

theorem viable_atom (hs : Sound nested (ExprPhrase .sum)) (hn : Viable nested (ExprPhrase .sum)) :
    Viable (atom nested) (ExprPhrase .atom) := by
  intro s e t h
  obtain ⟨_ | ⟨tok, rest⟩, n⟩ := s
  · exact viable_fail_expression .atom h
  cases tok with
  | integer | double | text => cases h
  | identifier name =>
    have h1 := fails_current_bind.mp h
    have h2 := fails_advance_bind.mp h1
    rcases (fails_choice Token.noConfusion).mp h2 with ⟨u, hu, h3⟩ | ⟨-, h3⟩
    · cases hu
      exact prompt_identifier.stuck (fails_map.mp h3) [.identifier name, .mark .dot] rfl
        (List.prefix_append _ [.identifier ""]) (.qualified name "")
    · exact absurd h3 not_fails_pure
  | mark m =>
    cases m with
    | question => cases h
    | leftParen =>
      have h1 := fails_current_bind.mp h
      have h2 : Fails _ ⟨rest, n⟩ e t := fails_advance_bind.mp h1
      rcases fails_bind.mp h2 with h3 | ⟨a, u, ha, h3⟩
      · refine (hn h3).behind [.mark .leftParen] rfl fun {us b m} hb => ?_
        exact ⟨.mark .leftParen :: us ++ [Token.mark .rightParen], b, m, List.prefix_append _ _, .parens hb⟩
      · obtain ⟨ts, hts, ha⟩ := hs ha
        obtain rfl : rest = _ := hts
        exact (prompt_expect _).stuck (fails_bind_pure.mp h3) (.mark .leftParen :: ts) rfl
          (List.prefix_append _ _) (.parens ha)
    | _ => exact viable_fail_expression .atom h
  | keyword | endOfInput => exact viable_fail_expression .atom h

theorem viable_signed (hs : Sound nested (ExprPhrase .sum)) (hn : Viable nested (ExprPhrase .sum)) :
    Viable (signed nested) (ExprPhrase .sign) := by
  intro s e t h
  rcases fails_bind.mp h with h1 | ⟨signs, u, hu, h1⟩
  · cases h1
  · obtain rfl := reads_minusSigns hu
    refine (viable_atom hs hn (fails_map.mp h1)).behind _ rfl fun hb => ?_
    exact ⟨_, _, _, List.prefix_rfl, signed_of_atom hb signs⟩

theorem exists_cons_of_separated {sep : Mark} {P : Phrase α} {n m : Nat} {ts : List Token} {as : List α}
    (h : Separated sep P n ts as m) : ∃ a as', as = a :: as' := by
  cases h <;> exact ⟨_, _, rfl⟩

theorem viable_power (hs : Sound nested (ExprPhrase .sum)) (hn : Viable nested (ExprPhrase .sum)) :
    Viable (power nested) (ExprPhrase .power) := by
  intro s e t h
  rcases fails_bind.mp h with h1 | ⟨as, u, has, h1⟩
  · refine (viable_separatedBy (sound_signed hs) (viable_signed hs hn) h1).imp fun hb => ?_
    obtain ⟨base, exponents, rfl⟩ := exists_cons_of_separated hb
    exact ⟨_, _, _, List.prefix_rfl, power_of_separated hb⟩
  · obtain ⟨ts, -, has⟩ := sound_separatedBy (sound_signed hs) has
    obtain ⟨base, exponents, rfl⟩ := exists_cons_of_separated has
    exact absurd h1 not_fails_pure

theorem viable_leftChain (he : op? .endOfInput = none) (hop : ReadsOps level op?) (hl : level ≠ .atom)
    (hs : Sound operand (ExprPhrase level.next)) (ho : Viable operand (ExprPhrase level.next)) :
    Viable (leftChain op? operand) (ExprPhrase level) := by
  intro s e t h
  rcases fails_bind.mp h with h1 | ⟨a, u, ha, h1⟩
  · exact (ho h1).imp fun hb => ⟨_, _, _, List.prefix_rfl, .tighter hl hb⟩
  have hoperand : ∀ {tok op}, op? tok = some op →
      Viable (do return (op, ← operand)) (After tok (OperandPhrase level)) := by
    intro tok op htok s e t h
    obtain ⟨mark, rfl, hmark⟩ := hop.mp htok
    exact (ho (fails_map.mp h)).imp fun {us b m} hb =>
      ⟨us, (op, b), m, List.prefix_rfl, mark, us, rfl, hmark, hb⟩
  obtain ⟨ts, hts, ha⟩ := hs ha
  have hmany := viable_many he (sound_operand hop hs) hoperand
  exact (hmany (fails_map.mp h1)).behind ts hts fun hb =>
    ⟨_, _, _, List.prefix_rfl, chain_of_many (.tighter hl ha) hb⟩

theorem viable_exprWithin (depth : Nat) : Viable (exprWithin depth) (ExprPhrase .sum) := by
  induction depth with
  | zero => exact viable_fail_expression .sum
  | succ depth ih =>
    have hs : Sound (power (exprWithin depth)) (ExprPhrase .power) :=
      sound_power (sound_exprWithin depth)
    have hproduct := viable_leftChain rfl readsOps_product (by decide) hs
      (viable_power (sound_exprWithin depth) ih)
    exact viable_leftChain rfl readsOps_sum (by decide)
      (sound_leftChain readsOps_product (by decide) hs) hproduct

theorem viable_expr : Viable expr (ExprPhrase .sum) := by
  intro s e t h
  exact viable_exprWithin _ (fails_get_bind.mp h)

end Expressions

/-! ## Queries -/

theorem viable_selectItem : Viable selectItem ItemPhrase := by
  intro s e t h
  by_cases hall : s.current = .mark .asterisk
  · obtain ⟨_ | ⟨tok, rest⟩, n⟩ := s
    · cases hall
    obtain rfl : tok = .mark .asterisk := hall
    cases h
  by_cases hallOf : ∃ name rest, s.rest = .identifier name :: .mark .dot :: .mark .asterisk :: rest
  · obtain ⟨name, rest, hs⟩ := hallOf
    obtain ⟨_, n⟩ := s
    obtain rfl := hs
    cases h
  have hallOf : ∀ name rest, s.rest ≠ .identifier name :: .mark .dot :: .mark .asterisk :: rest :=
    fun name rest hs => hallOf ⟨name, rest, hs⟩
  have h1 : Fails exprItem s e t := (outcome_selectItem hall hallOf).symm.trans h
  rcases fails_bind.mp h1 with h2 | ⟨a, u, ha, h2⟩
  · exact (viable_expr h2).imp fun hb => ⟨_, _, _, List.prefix_rfl, .bare hb⟩
  · obtain ⟨ts, hts, ha⟩ := sound_expr ha
    obtain ⟨v, rfl, h3⟩ := fails_identifierAfter? (fails_map.mp h2)
    exact prompt_identifier.stuck h3 (ts ++ [Token.keyword .AS]) (by simp [hts])
      (by simp) (.named ha "")

theorem viable_source : Viable source SourcePhrase := by
  intro s e t h
  rcases fails_bind.mp h with h1 | ⟨relation, u, hu, h1⟩
  · exact prompt_identifier.stuck h1 [] rfl List.nil_prefix (.bare "")
  obtain rfl := reads_identifier.mp hu
  rcases fails_bind.mp h1 with h2 | ⟨name?, v, hv, h2⟩
  · obtain ⟨w, rfl, h3⟩ := fails_identifierAfter? h2
    exact prompt_identifier.stuck h3 [.identifier relation, .keyword .AS] rfl
      (List.prefix_append _ _) (.namedAs relation "")
  cases name? with
  | some name => exact absurd h2 not_fails_pure
  | none =>
    have h3 := fails_current_bind.mp h2
    split at h3
    · exact absurd (fails_advance_bind.mp h3) not_fails_pure
    · exact absurd h3 not_fails_pure

theorem viable_select : Viable select (After (.keyword .SELECT) SelectPhrase) := by
  intro s e t h
  rcases fails_bind.mp h with h1 | ⟨items, u, hi, h1⟩
  · exact (viable_separatedBy sound_selectItem viable_selectItem h1).imp fun hb =>
      ⟨_, _, _, List.prefix_rfl, .bare hb⟩
  obtain ⟨ts, hts, hi⟩ := sound_separatedBy sound_selectItem hi
  rcases (fails_choice Token.noConfusion).mp h1 with ⟨v, rfl, h2⟩ | ⟨-, h2⟩
  · refine (viable_separatedBy sound_source viable_source (fails_map.mp h2)).behind
      (ts ++ [Token.keyword .FROM]) (by simp [hts]) fun {us sources m} hb => ?_
    exact ⟨ts ++ Token.keyword .FROM :: us, _, m, by simp, .from hi hb⟩
  · exact absurd h2 not_fails_pure

/-! ## Definitions -/

theorem viable_columnOption {tok : Token} {how : Reader ColumnOption}
    (ho : columnOption? tok = some how) : Viable how (After tok OptionPhrase) := by
  intro s e t h
  unfold columnOption? at ho
  split at ho <;> cases ho
  · exact (viable_expr (fails_map.mp h)).imp fun hb => ⟨_, _, _, List.prefix_rfl, .default hb⟩
  · exact (prompt_expect _).stuck (fails_bind_pure.mp h) [] rfl List.nil_prefix .primaryKey
  · exact absurd h not_fails_pure
  · exact (prompt_takeOf _ _).stuck (fails_map.mp h) [] rfl List.nil_prefix (.comment "")

theorem viable_columnDef : Viable columnDef ColumnPhrase := by
  intro s e t h
  rcases fails_bind.mp h with h1 | ⟨name, u, hu, h1⟩
  · exact prompt_identifier.stuck h1 [] rfl List.nil_prefix (.column "" "" .nil)
  obtain rfl := reads_identifier.mp hu
  rcases fails_bind.mp h1 with h2 | ⟨type, v, hv, h2⟩
  · exact prompt_identifier.stuck h2 [.identifier name] rfl (List.prefix_append _ _)
      (.column name "" .nil)
  obtain rfl := reads_identifier.mp hv
  refine (viable_many rfl sound_columnOption viable_columnOption (fails_bind_pure.mp h2)).behind
    [.identifier name, .identifier type] rfl fun hb => ?_
  exact ⟨_, _, _, List.prefix_rfl, .column name type hb⟩

theorem viable_columns : Viable (parenthesized columnDef) (Parenthesized ColumnPhrase) :=
  viable_parenthesized sound_columnDef viable_columnDef

theorem viable_createTable : Viable createTable (After (.keyword .CREATE) CreatePhrase) := by
  intro s e t h
  rcases fails_bind.mp h with h1 | ⟨_, u, hu, h1⟩
  · exact (prompt_expect _).stuck h1 [] rfl List.nil_prefix (.always "" .empty)
  obtain rfl := (reads_expect Token.noConfusion).mp hu
  rcases fails_bind.mp h1 with h2 | ⟨b, v, hb, h2⟩
  · exact absurd h2 not_fails_accept
  cases b with
  | true =>
    obtain rfl := (reads_accept_true Token.noConfusion).mp hb
    rcases fails_bind.mp h2 with h3 | ⟨_, w, hw, h3⟩
    · exact (prompt_expect _).stuck h3 [.keyword .TABLE, .keyword .IF] rfl
        (List.prefix_append _ _) (.ifNotExists "" .empty)
    obtain rfl := (reads_expect Token.noConfusion).mp hw
    rcases fails_bind.mp h3 with h4 | ⟨_, x, hx, h4⟩
    · exact (prompt_expect _).stuck h4 [.keyword .TABLE, .keyword .IF, .keyword .NOT] rfl
        (List.prefix_append _ _) (.ifNotExists "" .empty)
    obtain rfl := (reads_expect Token.noConfusion).mp hx
    rcases fails_bind.mp h4 with h5 | ⟨table, y, hy, h5⟩
    · exact prompt_identifier.stuck h5
        [.keyword .TABLE, .keyword .IF, .keyword .NOT, .keyword .EXISTS] rfl
        (List.prefix_append _ _) (.ifNotExists "" .empty)
    obtain rfl := reads_identifier.mp hy
    refine (viable_columns (fails_map.mp h5)).behind
      [.keyword .TABLE, .keyword .IF, .keyword .NOT, .keyword .EXISTS, .identifier table] rfl
      fun hc => ?_
    exact ⟨_, _, _, List.prefix_rfl, .ifNotExists table hc⟩
  | false =>
    obtain ⟨-, rfl⟩ := reads_accept_false.mp hb
    rcases fails_bind.mp h2 with h3 | ⟨table, w, hw, h3⟩
    · exact prompt_identifier.stuck h3 [.keyword .TABLE] rfl (List.prefix_append _ _)
        (.always "" .empty)
    obtain rfl := reads_identifier.mp hw
    refine (viable_columns (fails_map.mp h3)).behind [.keyword .TABLE, .identifier table] rfl
      fun hc => ?_
    exact ⟨_, _, _, List.prefix_rfl, .always table hc⟩

/-! ## Insertions -/

theorem viable_identifier : Viable identifier NamePhrase := by
  intro s e t h
  exact prompt_identifier.stuck h [] rfl List.nil_prefix (.name "")

theorem viable_valueRow : Viable valueRow RowPhrase := by
  intro s e t h
  have hone : Separated .comma (ExprPhrase .sum) s.parameters [.integer 1] _ s.parameters :=
    .one (exprPhrase_one .sum _)
  rcases fails_bind.mp h with h1 | ⟨_, u, hu, h1⟩
  · exact (prompt_expect _).stuck h1 [] rfl List.nil_prefix (.row hone)
  obtain rfl := (reads_expect Token.noConfusion).mp hu
  rcases fails_bind.mp h1 with h2 | ⟨values, v, hv, h2⟩
  · refine (viable_separatedBy sound_expr viable_expr h2).behind [.mark .leftParen] rfl
      fun {us as m} hb => ?_
    exact ⟨.mark .leftParen :: us ++ [Token.mark .rightParen], as, m, List.prefix_append _ _, .row hb⟩
  · obtain ⟨ts, hts, hvs⟩ := sound_separatedBy sound_expr hv
    exact (prompt_expect _).stuck (fails_bind_pure.mp h2) (.mark .leftParen :: ts)
      (by rw [hts]; rfl) (List.prefix_append _ _) (.row hvs)

/-- A row to complete an insertion with. -/
theorem rowPhrase_one (n : Nat) :
    Separated .comma RowPhrase n [.mark .leftParen, .integer 1, .mark .rightParen]
      [[.number (.ofInt 1)]] n :=
  .one (.row (.one (exprPhrase_one .sum n)))

theorem viable_insert : Viable insert (After (.keyword .INSERT) InsertPhrase) := by
  intro s e t h
  rcases fails_bind.mp h with h1 | ⟨_, u, hu, h1⟩
  · exact (prompt_expect _).stuck h1 [] rfl List.nil_prefix
      (.insert "" .empty (rowPhrase_one _))
  obtain rfl := (reads_expect Token.noConfusion).mp hu
  rcases fails_bind.mp h1 with h2 | ⟨table, v, hv, h2⟩
  · exact prompt_identifier.stuck h2 [.keyword .INTO] rfl (List.prefix_append _ _)
      (.insert "" .empty (rowPhrase_one _))
  obtain rfl := reads_identifier.mp hv
  rcases fails_bind.mp h2 with h3 | ⟨columns, w, hw, h3⟩
  · refine (viable_parenthesized sound_identifier viable_identifier h3).behind
      [.keyword .INTO, .identifier table] rfl fun {us columns m} hc => ?_
    exact ⟨_, _, m, List.prefix_append _ _, .insert table hc (rowPhrase_one m)⟩
  obtain ⟨ts, hts, hc⟩ := sound_parenthesized sound_identifier hw
  rcases fails_bind.mp h3 with h4 | ⟨_, x, hx, h4⟩
  · exact (prompt_expect _).stuck h4 (.keyword .INTO :: .identifier table :: ts)
      (by rw [hts]; rfl) (List.prefix_append _ _) (.insert table hc (rowPhrase_one _))
  obtain rfl := (reads_expect Token.noConfusion).mp hx
  refine (viable_separatedBy sound_valueRow viable_valueRow (fails_map.mp h4)).behind
    (.keyword .INTO :: .identifier table :: ts ++ [Token.keyword .VALUES]) (by simp [hts])
    fun {us rows m} hr => ?_
  exact ⟨_, _, m, by simp, .insert table hc hr⟩

/-! ## Statements -/

theorem isTables_self : IsTables "TABLES" := List.forall₂_same.mpr fun _ _ => .inl rfl

theorem viable_bareStatement : Viable bareStatement StatementPhrase := by
  intro s e t h
  rcases (fails_choice Token.noConfusion).mp h with ⟨u, rfl, h1⟩ | ⟨-, h1⟩
  · refine (viable_select (fails_map.mp h1)).behind [.keyword .SELECT] rfl fun hq => ?_
    exact ⟨_, _, _, List.prefix_rfl, .select hq⟩
  rcases (fails_choice Token.noConfusion).mp h1 with ⟨u, rfl, h2⟩ | ⟨-, h2⟩
  · exact (prompt_takeOf _ _).stuck (fails_bind_pure.mp h2) [.keyword .SHOW] rfl
      (List.prefix_append _ _) (.showTables isTables_self)
  rcases (fails_choice Token.noConfusion).mp h2 with ⟨u, rfl, h3⟩ | ⟨-, h3⟩
  · refine (viable_createTable (fails_map.mp h3)).behind [.keyword .CREATE] rfl fun hd => ?_
    exact ⟨_, _, _, List.prefix_rfl, .createTable hd⟩
  rcases (fails_choice Token.noConfusion).mp h3 with ⟨u, rfl, h4⟩ | ⟨-, h4⟩
  · refine (viable_insert (fails_map.mp h4)).behind [.keyword .INSERT] rfl fun hi => ?_
    exact ⟨_, _, _, List.prefix_rfl, .insert hi⟩
  · exact (prompt_fail _).stuck h4 [] rfl List.nil_prefix (.showTables isTables_self)

/-! ## The end of a statement -/

variable {s t : Stream} {e : Error}

theorem viable_statement : Viable statement ClosedPhrase := by
  intro s e t h
  rw [statement_eq] at h
  rcases fails_bind.mp h with h1 | ⟨a, u, ha, h1⟩
  · rcases fails_bind.mp h1 with h2 | ⟨_, _, _, h2⟩
    · exact (viable_bareStatement h2).imp fun hb => ⟨_, _, _, List.prefix_rfl, _, hb, .inl rfl⟩
    · exact absurd (fails_bind_pure.mp h2) not_fails_accept
  · obtain ⟨ts, hts, ha⟩ := sound_closedStatement ha
    exact (prompt_expect _).stuck (fails_bind_pure.mp h1) ts hts List.prefix_rfl ha

theorem alike_closedStatement (d d' : Nat) : Alike d d' closedStatement closedStatement :=
  alike_bareStatement.bind fun s => (alike_accept Token.noConfusion).bind fun _ => alike_pure s

/-- The tokens that were taken and the next one make reading fail, whatever follows. -/
theorem fails_statement_of_current (h : Fails statement s e t) :
    ∃ pre, s.rest = pre ++ t.rest ∧ ∀ rest : List Token, rest.headD .endOfInput = t.current →
      Fails statement ⟨pre ++ rest, s.parameters⟩ e ⟨rest, t.parameters⟩ := by
  rw [statement_eq] at h ⊢
  rcases fails_bind.mp h with h1 | ⟨a, u, ha, h1⟩
  · obtain ⟨pre, hs, hmore⟩ := outcome_of_alike alike_closedStatement h1
    exact ⟨pre, hs, fun rest hrest => fails_bind.mpr (.inl (hmore rest hrest))⟩
  · obtain ⟨pre, hs, hmore⟩ := outcome_of_alike alike_closedStatement ha
    obtain ⟨hend, rfl, rfl⟩ := fails_expect.mp (fails_bind_pure.mp h1)
    refine ⟨pre, hs, fun rest hrest => fails_bind.mpr (.inr ⟨a, _, hmore rest hrest, ?_⟩)⟩
    have hcurrent : Stream.current ⟨rest, u.parameters⟩ = u.current := hrest
    refine fails_bind_pure.mpr (fails_expect.mpr ⟨?_, ?_, rfl⟩)
    · rwa [hcurrent]
    · rw [hcurrent]

end Reader

/-- **The first wrong token.** On tokens behind which the input ends, reading fails only on a token, which
the error names and the stream still holds. The tokens in front of it begin a statement that is read, and
together with it they begin none. -/
theorem readStatement_error_at_first_dead_token {body : List Token} {e : Error} {t : Stream}
    (h : Stream.readStatement ⟨body ++ [Token.endOfInput], 0⟩ = (.error e, t)) :
    ∃ pre tok rest, body ++ [Token.endOfInput] = pre ++ tok :: rest ∧ t.rest = tok :: rest ∧
      (∃ expected, e = .unexpectedToken tok expected ∧ e.message =
        "Parse error: unexpected token '" ++ tok.display ++ "', expected " ++ expected.text) ∧
      (∃ more s, Token.endOfInput ∉ pre ++ more ∧
        (Stream.readStatement ⟨pre ++ more ++ [Token.endOfInput], 0⟩).1 = .ok s) ∧
      ∀ more s, (Stream.readStatement ⟨pre ++ tok :: more, 0⟩).1 ≠ .ok s := by
  have hfails : Fails statement ⟨body ++ [Token.endOfInput], 0⟩ e t := h
  obtain ⟨⟨expected, rfl⟩, pre, _, s, m, hpre, ⟨more, rfl⟩, hs⟩ := viable_statement hfails
  obtain ⟨pre', hpre', hdead⟩ := fails_statement_of_current hfails
  obtain rfl : pre' = pre := List.append_cancel_right (hpre'.symm.trans hpre)
  have hnot : Token.endOfInput ∉ pre' ++ more := noEnd_closedPhrase hs
  obtain ⟨_ | ⟨tok, rest⟩, n⟩ := t
  · -- the end of the input cannot be among the tokens that were taken
    have hpre : body ++ [Token.endOfInput] = pre' := hpre.trans (List.append_nil pre')
    exact absurd (by simp [← hpre]) hnot
  refine ⟨pre', tok, rest, hpre, rfl, ⟨expected, rfl, rfl⟩, ⟨more, s, hnot, ?_⟩, fun after s hread => ?_⟩
  · obtain ⟨us, hus, hclosed⟩ := hs
    obtain ⟨u, hread⟩ := (reads_statement_iff_whole hnot s).mpr ⟨us, m, hus, hclosed⟩
    exact congrArg Prod.fst hread
  · have hfail := congrArg Prod.fst (hdead (tok :: after) rfl)
    cases hfail.symm.trans hread

/-- A number behind a name and a dot, with more tokens behind it. -/
theorem readStatement_error_at_first_dead_token_of_query :
    let body : List Token := [.keyword .SELECT, .identifier "a", .mark .dot, .integer 5, .mark .comma]
    let e : Error := .unexpectedToken (.integer 5) .identifier
    let t : Stream := ⟨[.integer 5, .mark .comma, .endOfInput], 0⟩
    Stream.readStatement ⟨body ++ [Token.endOfInput], 0⟩ = (.error e, t) ∧
      ∃ pre tok rest, body ++ [Token.endOfInput] = pre ++ tok :: rest ∧ t.rest = tok :: rest ∧
        (∃ expected, e = .unexpectedToken tok expected ∧ e.message =
          "Parse error: unexpected token '" ++ tok.display ++ "', expected " ++ expected.text) ∧
        (∃ more s, Token.endOfInput ∉ pre ++ more ∧
          (Stream.readStatement ⟨pre ++ more ++ [Token.endOfInput], 0⟩).1 = .ok s) ∧
        ∀ more s, (Stream.readStatement ⟨pre ++ tok :: more, 0⟩).1 ≠ .ok s := by
  intro body e t
  have h : Stream.readStatement ⟨body ++ [Token.endOfInput], 0⟩ = (.error e, t) := rfl
  exact ⟨h, readStatement_error_at_first_dead_token h⟩

end PullSql.Sql
