import Mathlib.Data.List.TakeWhile
import PullSql.Proofs.Sql.Locality

/-!
# Readers that count

A stream counts the placeholders that were read from it. Every reader takes tokens from the front and
counts the placeholders among them, whether it succeeds or fails (`Counting`); an expression that is read
and then dropped counts as well.

Main statement: `counting_statement`.
-/

namespace PullSql.Sql

open Grammar Reader

/-- How many of the tokens are placeholders. -/
def questions (ts : List Token) : Nat := ts.count (.mark .question)

section Questions

variable {tok : Token} {ts us : List Token}

@[simp] theorem questions_nil : questions [] = 0 := rfl

@[simp] theorem questions_append : questions (ts ++ us) = questions ts + questions us :=
  List.count_append

@[simp] theorem questions_cons (h : tok ≠ .mark .question) : questions (tok :: ts) = questions ts :=
  List.count_cons_of_ne h

end Questions

/-! ## Streams -/

/-- From `s` to `t` tokens are taken from the front, and the placeholders among them are counted. -/
def Stream.Passes (s t : Stream) : Prop :=
  ∃ taken, s.rest = taken ++ t.rest ∧ t.parameters = s.parameters + questions taken

theorem Stream.Passes.refl (s : Stream) : s.Passes s := ⟨[], rfl, rfl⟩

theorem Stream.Passes.trans {s t u : Stream} (h : s.Passes t) (h' : t.Passes u) : s.Passes u := by
  obtain ⟨taken, hs, ht⟩ := h
  obtain ⟨more, hmore, hu⟩ := h'
  refine ⟨taken ++ more, by rw [hs, hmore, List.append_assoc], ?_⟩
  rw [hu, ht, questions_append, Nat.add_assoc]

/-- At the end of the input nothing is taken. -/
theorem Stream.passes_advance {s : Stream} (h : s.current ≠ .mark .question) : s.Passes s.advance := by
  obtain ⟨_ | ⟨tok, rest⟩, n⟩ := s
  · exact .refl _
  · have htok : tok ≠ .mark .question := h
    exact ⟨[tok], rfl, by rw [questions_cons htok]; rfl⟩

/-! ## Readers -/

namespace Reader

variable {α β : Type}

/-- A reader that takes tokens from the front and counts the placeholders among them, whether it
succeeds or fails. -/
def Counting (r : Reader α) : Prop := ∀ s : Stream, s.Passes (outcome r s).2

/-- A reader that does so in front of the given token. -/
def CountingAt (tok : Token) (r : Reader α) : Prop :=
  ∀ s : Stream, s.current = tok → s.Passes (outcome r s).2

section Counting

variable {r q : Reader α} {tok : Token}

theorem Counting.at (h : Counting r) (tok : Token) : CountingAt tok r := fun s _ => h s

theorem counting_pure (a : α) : Counting (pure a : Reader α) := fun s => .refl s

theorem counting_fail (e : Expectation) : Counting (fail e : Reader α) := fun s => .refl s

theorem counting_get : Counting get := fun s => .refl s

theorem Counting.bind {f : α → Reader β} (hr : Counting r) (hf : ∀ a, Counting (f a)) :
    Counting (r >>= f) := by
  intro s
  have hs := hr s
  rw [outcome_bind]
  rcases hu : outcome r s with ⟨e | a, u⟩
  · rwa [hu] at hs
  · rw [hu] at hs
    exact hs.trans (hf a u)

theorem Counting.map (hr : Counting r) (f : α → β) : Counting (f <$> r) := by
  rw [map_eq_pure_bind]
  exact hr.bind fun a => counting_pure (f a)

theorem counting_look {f : Token → Reader α} (h : ∀ tok, CountingAt tok (f tok)) :
    Counting (current >>= f) := by
  intro s
  rw [outcome_bind]
  exact h s.current s rfl

theorem countingAt_advance (ht : tok ≠ .mark .question) (hr : Counting r) :
    CountingAt tok (advance >>= fun _ => r) := by
  rintro s rfl
  rw [outcome_bind]
  exact (Stream.passes_advance ht).trans (hr s.advance)

theorem counting_accept (ht : tok ≠ .mark .question) : Counting (accept tok) := by
  refine counting_look fun next => ?_
  by_cases h : next = tok
  · rw [if_pos h]
    exact countingAt_advance (h ▸ ht) (counting_pure true)
  · rw [if_neg h]
    exact (counting_pure false).at next

theorem counting_choice (ht : tok ≠ .mark .question) (hr : Counting r) (hq : Counting q) :
    Counting (do if ← accept tok then r else q) := by
  refine (counting_accept ht).bind fun taken => ?_
  cases taken
  · exact hq
  · exact hr

theorem counting_expect (ht : tok ≠ .mark .question) : Counting (expect tok) := by
  refine (counting_accept ht).bind fun taken => ?_
  cases taken
  · exact counting_fail _
  · exact counting_pure ()

theorem counting_expectKeyword (word : Keyword) : Counting (expectKeyword word) :=
  counting_expect Token.noConfusion

theorem counting_expectMark {m : Mark} (hm : m ≠ .question) : Counting (expectMark m) :=
  counting_expect fun h => hm (Token.mark.inj h)

theorem counting_takeOf {pick : Token → Option α} (hq : pick (.mark .question) = none)
    (expected : Expectation) : Counting (takeOf pick expected) := by
  refine counting_look fun next => ?_
  rcases ha : pick next with _ | a
  · exact (counting_fail _).at _
  · refine countingAt_advance (fun hn => ?_) (counting_pure a)
    rw [hn, hq] at ha
    cases ha

theorem counting_identifier : Counting identifier := counting_takeOf rfl _

theorem counting_identifierAfter? (word : Keyword) : Counting (identifierAfter? word) :=
  counting_choice Token.noConfusion (counting_identifier.map some) (counting_pure none)

end Counting

/-! ### Repetition -/

section Many

variable {opens : Token → Option β} {item : β → Reader α} {r : Reader α} {sep : Mark}

theorem counting_manyWithin (ho : opens (.mark .question) = none)
    (hi : ∀ {tok how}, opens tok = some how → Counting (item how)) (bound : Nat) :
    Counting (manyWithin opens item bound) := by
  induction bound with
  | zero => exact counting_pure []
  | succ bound ih =>
    intro s
    rcases hs : opens s.current with _ | how
    · rw [outcome_manyWithin_none hs]
      exact .refl s
    · have ht : s.current ≠ .mark .question := fun ht => by simp [ht, ho] at hs
      have hbody : Counting (do let first ← item how; return first :: (← manyWithin opens item bound)) :=
        (hi hs).bind fun first => ih.map (first :: ·)
      rw [outcome_manyWithin_some hs]
      exact (Stream.passes_advance ht).trans (hbody s.advance)

theorem counting_many (ho : opens (.mark .question) = none)
    (hi : ∀ {tok how}, opens tok = some how → Counting (item how)) : Counting (many opens item) :=
  counting_get.bind fun s => counting_manyWithin ho hi s.rest.length

theorem counting_separatedBy (hsep : sep ≠ .question) (hr : Counting r) :
    Counting (separatedBy sep r) := by
  refine hr.bind fun first => Counting.map (counting_many ?_ fun _ => hr) (first :: ·)
  exact if_neg fun h => hsep (Token.mark.inj h).symm

theorem counting_parenthesized (hr : Counting r) : Counting (parenthesized r) := by
  have hclose : ∀ as : List α, Counting (do expectMark .rightParen; return as) := fun as =>
    (counting_expectMark (by decide)).bind fun _ => counting_pure as
  refine (counting_expectMark (by decide)).bind fun _ => counting_look fun next => ?_
  refine Counting.at ?_ next
  split
  · exact (counting_pure []).bind hclose
  · exact (counting_separatedBy (by decide) hr).bind hclose

end Many

/-! ### Expressions -/

section Expressions

variable {nested operand : Reader Expr}

/-- The number is taken together with its token. -/
theorem countingAt_question {f : Nat → α} :
    CountingAt (.mark .question) (advance >>= fun _ => f <$> freshParameter) := by
  rintro ⟨_ | ⟨tok, rest⟩, n⟩ h
  · cases h
  · obtain rfl : tok = .mark .question := h
    exact ⟨[.mark .question], rfl, rfl⟩

theorem counting_atom (hn : Counting nested) : Counting (atom nested) := by
  refine counting_look fun next => ?_
  cases next with
  | integer | double | text => exact countingAt_advance Token.noConfusion (counting_pure _)
  | identifier name =>
    refine countingAt_advance Token.noConfusion (counting_choice (by decide) ?_ (counting_pure _))
    exact counting_identifier.map fun field => Expr.field (Name.qualified name field)
  | mark m =>
    cases m with
    | question => exact countingAt_question
    | leftParen =>
      refine countingAt_advance (by decide) (hn.bind fun e => ?_)
      exact (counting_expectMark (by decide)).bind fun _ => counting_pure e
    | _ => exact (counting_fail _).at _
  | keyword | endOfInput => exact (counting_fail _).at _

theorem counting_minusSigns : Counting minusSigns := by
  intro s
  refine ⟨s.rest.takeWhile fun t => decide (t = Token.mark .minus),
    List.takeWhile_append_dropWhile.symm, ?_⟩
  have hnone : questions (s.rest.takeWhile fun t => decide (t = Token.mark .minus)) = 0 :=
    List.count_eq_zero.mpr fun h => absurd (List.mem_takeWhile_imp h) (by decide)
  rw [hnone]
  rfl

theorem counting_signed (hn : Counting nested) : Counting (signed nested) :=
  counting_minusSigns.bind fun signs => (counting_atom hn).map (Nat.repeat .negate signs)

theorem counting_power (hn : Counting nested) : Counting (power nested) := by
  refine (counting_separatedBy (by decide) (counting_signed hn)).bind fun as => ?_
  cases as with
  | nil => exact counting_fail .expression
  | cons base exponents => exact counting_pure (tower base exponents)

theorem counting_leftChain {op? : Token → Option BinaryOp} (h : op? (.mark .question) = none)
    (ho : Counting operand) : Counting (leftChain op? operand) :=
  ho.bind fun first => (counting_many h fun {_ op} _ => ho.map fun e => (op, e)).bind fun rest =>
    counting_pure (chain first rest)

theorem counting_exprWithin (depth : Nat) : Counting (exprWithin depth) := by
  induction depth with
  | zero => exact counting_fail .expression
  | succ depth ih => exact counting_leftChain rfl (counting_leftChain rfl (counting_power ih))

theorem counting_expr : Counting expr :=
  counting_get.bind fun s => counting_exprWithin (s.rest.length + 1)

end Expressions

/-! ### Statements -/

theorem counting_exprItem : Counting exprItem :=
  counting_expr.bind fun e => (counting_identifierAfter? .AS).map (SelectItem.expr e)

/-- None of the three tokens of `name.*` is a placeholder. -/
theorem counting_selectItem : Counting selectItem := by
  intro s
  by_cases hall : s.current = .mark .asterisk
  · obtain ⟨_ | ⟨tok, rest⟩, n⟩ := s
    · cases hall
    · obtain rfl : tok = .mark .asterisk := hall
      exact ⟨[.mark .asterisk], rfl, rfl⟩
  by_cases hallOf : ∃ name rest, s.rest = .identifier name :: .mark .dot :: .mark .asterisk :: rest
  · obtain ⟨name, rest, hs⟩ := hallOf
    obtain ⟨_, n⟩ := s
    obtain rfl := hs
    exact ⟨[.identifier name, .mark .dot, .mark .asterisk], rfl, rfl⟩
  · rw [outcome_selectItem hall fun name rest hs => hallOf ⟨name, rest, hs⟩]
    exact counting_exprItem s

theorem counting_source : Counting source := by
  refine counting_identifier.bind fun relation => (counting_identifierAfter? .AS).bind fun name? => ?_
  cases name? with
  | some name => exact counting_pure _
  | none =>
    refine counting_look fun next => ?_
    cases next with
    | identifier name => exact countingAt_advance Token.noConfusion (counting_pure _)
    | _ => exact (counting_pure _).at _

theorem counting_select : Counting select := by
  refine (counting_separatedBy (by decide) counting_selectItem).bind fun items => ?_
  refine counting_choice Token.noConfusion ?_ (counting_pure _)
  exact (counting_separatedBy (by decide) counting_source).map fun sources =>
    Select.mk items (some sources)

theorem counting_columnOption {tok : Token} {how : Reader ColumnOption}
    (h : columnOption? tok = some how) : Counting how := by
  unfold columnOption? at h
  split at h <;> cases h
  · exact counting_expr.map ColumnOption.default
  · exact (counting_expectKeyword .KEY).bind fun _ => counting_pure _
  · exact counting_pure _
  · exact (counting_takeOf rfl .string).map ColumnOption.comment

theorem counting_columnDef : Counting columnDef :=
  counting_identifier.bind fun _ => counting_identifier.bind fun _ =>
    (counting_many rfl counting_columnOption).bind fun _ => counting_pure _

theorem counting_createTable : Counting createTable := by
  refine (counting_expectKeyword .TABLE).bind fun _ => ?_
  refine (counting_accept Token.noConfusion).bind fun b => ?_
  have htable : Counting (do return ⟨← identifier, b, ← parenthesized columnDef⟩ : Reader CreateTable) :=
    counting_identifier.bind fun table =>
      (counting_parenthesized counting_columnDef).map (CreateTable.mk table b)
  cases b with
  | true =>
    exact (counting_expectKeyword .NOT).bind fun _ => (counting_expectKeyword .EXISTS).bind fun _ => htable
  | false => exact htable

theorem counting_valueRow : Counting valueRow :=
  (counting_expectMark (by decide)).bind fun _ =>
    (counting_separatedBy (by decide) counting_expr).bind fun values =>
      (counting_expectMark (by decide)).bind fun _ => counting_pure values

theorem counting_insert : Counting insert :=
  (counting_expectKeyword .INTO).bind fun _ => counting_identifier.bind fun table =>
    (counting_parenthesized counting_identifier).bind fun columns =>
      (counting_expectKeyword .VALUES).bind fun _ =>
        (counting_separatedBy (by decide) counting_valueRow).map (Insert.mk table columns)

theorem counting_bareStatement : Counting bareStatement := by
  refine counting_choice Token.noConfusion (counting_select.map _) ?_
  refine counting_choice Token.noConfusion ((counting_takeOf rfl .tables).bind fun _ => counting_pure _) ?_
  refine counting_choice Token.noConfusion (counting_createTable.map _) ?_
  exact counting_choice Token.noConfusion (counting_insert.map _) (counting_fail _)

theorem counting_statement : Counting statement :=
  counting_bareStatement.bind fun s => (counting_accept (by decide)).bind fun _ =>
    (counting_expect Token.noConfusion).bind fun _ => counting_pure s

theorem advance_of_reads_expect {s t : Stream} {tok : Token} {u : Unit} (h : Reads (expect tok) s u t) :
    s.advance = t := by
  have hcurrent := current_of_reads_expect h
  unfold expect accept at h
  simpa [reads_bind, reads_map, hcurrent] using h

end Reader

end PullSql.Sql
