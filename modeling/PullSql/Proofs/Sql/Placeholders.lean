import Mathlib.Order.Monotone.Basic
import PullSql.Proofs.Sql.Counting
import PullSql.Proofs.Sql.Printing
import PullSql.Proofs.Sql.Runs

/-!
# The numbers of placeholders

A phrase gives its placeholders the numbers that follow those in front of it, from left to right
(`Numbers`). A column keeps the placeholders of its last default value only (`WrittenColumn`).

With the count that a stream keeps between calls (`Stream.afterCalls`) this gives the main statement,
`placeholders_of_calls`.
-/

namespace PullSql.Sql

open Grammar Reader
open Printing (parameters)

/-! ## Phrases -/

/-- The placeholders of a select item, from left to right. -/
def SelectItem.placeholders : SelectItem → List Nat
  | .all | .allOf _ => []
  | .expr e _ => parameters e

/-- The placeholders of a column option. -/
def Reader.ColumnOption.placeholders : ColumnOption → List Nat
  | .default e => parameters e
  | .primaryKey | .autoIncrement | .comment _ => []

/-- The placeholders of the default value of a column. -/
def ColumnDef.placeholders (column : ColumnDef) : List Nat := column.default?.toList.flatMap parameters

/-- The placeholders of a statement, from left to right. -/
def Statement.placeholders : Statement → List Nat
  | .select query => query.items.flatMap SelectItem.placeholders
  | .showTables => []
  | .createTable definition => definition.columns.flatMap ColumnDef.placeholders
  | .insert insertion => insertion.rows.flatMap fun row => row.flatMap parameters

namespace Grammar

variable {α β : Type}

/-- A phrase whose placeholders have the numbers from the first one on, from left to right. -/
def Numbers (P : Phrase α) (f : α → List Nat) : Prop :=
  ∀ ⦃n ts a m⦄, P n ts a m → m = n + questions ts ∧ f a = List.range' n (questions ts)

/-- Numbers that go on behind others. -/
theorem range'_questions (n : Nat) (ts us : List Token) :
    List.range' n (questions ts) ++ List.range' (n + questions ts) (questions us) =
      List.range' n (questions (ts ++ us)) := by
  rw [questions_append, ← List.range'_append_1]

section Numbers

variable {P : Phrase α} {f : α → List Nat} {sep : Mark}

theorem numbers_many (hP : Numbers P f) : Numbers (Many P) (List.flatMap f) := by
  intro n ts as m h
  induction h with
  | nil => exact ⟨rfl, rfl⟩
  | @cons n k m ts us a as ha _ ih =>
    obtain ⟨rfl, hfirst⟩ := hP ha
    obtain ⟨rfl, hmore⟩ := ih
    refine ⟨by rw [questions_append, Nat.add_assoc], ?_⟩
    rw [List.flatMap_cons, hfirst, hmore, range'_questions]

theorem numbers_separated (hsep : sep ≠ .question) (hP : Numbers P f) :
    Numbers (Separated sep P) (List.flatMap f) := by
  have hbehind : Numbers (Behind sep P) f := by
    rintro n _ a m ⟨us, rfl, ha⟩
    rw [questions_cons fun h => hsep (Token.mark.inj h)]
    exact hP ha
  intro n ts as m h
  obtain ⟨us, vs, k, a, as, rfl, rfl, ha, has⟩ := separated_iff.mp h
  obtain ⟨rfl, hfirst⟩ := hP ha
  obtain ⟨rfl, hmore⟩ := numbers_many hbehind has
  refine ⟨by rw [questions_append, Nat.add_assoc], ?_⟩
  rw [List.flatMap_cons, hfirst, hmore, range'_questions]

theorem numbers_parenthesized (hP : Numbers P f) : Numbers (Parenthesized P) (List.flatMap f) := by
  have hitems : Numbers (Separated .comma P) (List.flatMap f) := numbers_separated (by decide) hP
  intro n ts as m h
  cases h with
  | empty => exact ⟨rfl, rfl⟩
  | items has => simpa using hitems has

/-- A phrase without placeholders takes no numbers. -/
theorem numbers_none (h : ∀ ⦃n ts a m⦄, P n ts a m → m = n ∧ questions ts = 0 ∧ f a = []) :
    Numbers P f := by
  intro n ts a m ha
  obtain ⟨rfl, hts, hf⟩ := h ha
  rw [hts, hf]
  exact ⟨rfl, rfl⟩

theorem numbers_exprPhrase (level : Level) : Numbers (ExprPhrase level) parameters := by
  intro n ts e m h
  induction h with
  | @left level mark op n k m ts us a b hop _ _ iha ihb =>
    obtain ⟨rfl, ha⟩ := iha
    obtain ⟨rfl, hb⟩ := ihb
    have hmark : questions (.mark mark :: us) = questions us :=
      questions_cons (by cases hop <;> decide)
    rw [← hmark] at hb ⊢
    exact ⟨by rw [questions_append, Nat.add_assoc], by rw [parameters, ha, hb, range'_questions]⟩
  | @pow n k m ts us a b _ _ iha ihb =>
    obtain ⟨rfl, ha⟩ := iha
    obtain ⟨rfl, hb⟩ := ihb
    have hmark : questions (.mark .caret :: us) = questions us := questions_cons (by decide)
    rw [← hmark] at hb ⊢
    exact ⟨by rw [questions_append, Nat.add_assoc], by rw [parameters, ha, hb, range'_questions]⟩
  | negate _ ih => simpa [parameters] using ih
  | tighter _ _ ih => exact ih
  | parens _ ih => simpa using ih
  | parameter | integer | double | text | field | qualified => exact ⟨rfl, rfl⟩

end Numbers

/-! ### Queries and insertions -/

theorem numbers_itemPhrase : Numbers ItemPhrase SelectItem.placeholders := by
  intro n ts item m h
  cases h with
  | all | allOf => exact ⟨rfl, rfl⟩
  | bare he => exact numbers_exprPhrase .sum he
  | named he => simpa [SelectItem.placeholders] using numbers_exprPhrase .sum he

theorem numbers_sourcePhrase : Numbers SourcePhrase fun _ => [] :=
  numbers_none fun n ts source m h => by cases h <;> exact ⟨rfl, rfl, rfl⟩

theorem numbers_selectPhrase :
    Numbers SelectPhrase fun query => query.items.flatMap SelectItem.placeholders := by
  intro n ts query m h
  cases h with
  | bare hi => simpa using numbers_separated (by decide) numbers_itemPhrase hi
  | @«from» _ _ _ _ us _ _ hi hs =>
    obtain ⟨rfl, hitems⟩ := numbers_separated (by decide) numbers_itemPhrase hi
    obtain ⟨rfl, hsources⟩ := numbers_separated (by decide) numbers_sourcePhrase hs
    have hnone : questions us = 0 := by simpa using (congrArg List.length hsources).symm
    simpa [hnone] using hitems

theorem numbers_rowPhrase : Numbers RowPhrase (List.flatMap parameters) := by
  have hvalues : Numbers (Separated .comma (ExprPhrase .sum)) (List.flatMap parameters) :=
    numbers_separated (by decide) (numbers_exprPhrase .sum)
  intro n ts values m h
  cases h with
  | row hv => simpa using hvalues hv

theorem numbers_namePhrase : Numbers NamePhrase fun _ => [] :=
  numbers_none fun n ts name m h => by cases h; exact ⟨rfl, rfl, rfl⟩

theorem numbers_insertPhrase :
    Numbers InsertPhrase fun insertion => insertion.rows.flatMap (List.flatMap parameters) := by
  intro n ts insertion m h
  cases h with
  | @insert _ _ _ us _ _ _ table hc hr =>
    obtain ⟨rfl, hcolumns⟩ := numbers_parenthesized numbers_namePhrase hc
    obtain ⟨rfl, hrows⟩ := numbers_separated (by decide) numbers_rowPhrase hr
    have hnone : questions us = 0 := by simpa using (congrArg List.length hcolumns).symm
    simpa [hnone] using hrows

/-! ### Definitions -/

/-- A column as it is written, with all its options. -/
structure WrittenColumn where
  name : String
  type : String
  options : List ColumnOption

/-- The column that is made of it. -/
def WrittenColumn.column (w : WrittenColumn) : ColumnDef := columnOf w.name w.type w.options

/-- The placeholders of all its options, from left to right. -/
def WrittenColumn.placeholders (w : WrittenColumn) : List Nat :=
  w.options.flatMap ColumnOption.placeholders

/-- A column with all its options, `name type {option}`. -/
def WrittenPhrase : Phrase WrittenColumn := fun n ts w m =>
  ∃ us, ts = .identifier w.name :: .identifier w.type :: us ∧ Many OptionPhrase n us w.options m

/-- Only the last default value of a column is kept. -/
theorem WrittenColumn.placeholders_column_sublist (w : WrittenColumn) :
    w.column.placeholders.Sublist w.placeholders := by
  obtain ⟨default?, hcolumn, hdefault⟩ : ∃ default? : ColumnOption → Option Expr,
      w.column.default? = (w.options.filterMap default?).getLast? ∧
        ∀ option, (default? option).toList.flatMap parameters = option.placeholders :=
    ⟨_, rfl, fun option => by cases option <;> simp [ColumnOption.placeholders]⟩
  have hwritten : w.placeholders = (w.options.filterMap default?).flatMap parameters := by
    rw [List.filterMap_eq_flatMap_toList, List.flatMap_assoc]
    exact List.flatMap_congr fun option _ => (hdefault option).symm
  have hlast : w.column.default?.toList.Sublist (w.options.filterMap default?) := by
    rw [hcolumn]
    rcases hl : (w.options.filterMap default?).getLast? with _ | e
    · exact List.nil_sublist _
    · exact List.singleton_sublist.mpr (List.mem_of_getLast? hl)
  rw [hwritten]
  exact hlast.flatMap parameters

theorem numbers_optionPhrase : Numbers OptionPhrase ColumnOption.placeholders := by
  intro n ts option m h
  cases h with
  | default he => simpa [ColumnOption.placeholders] using numbers_exprPhrase .sum he
  | primaryKey | autoIncrement | comment => exact ⟨rfl, rfl⟩

theorem numbers_writtenPhrase : Numbers WrittenPhrase WrittenColumn.placeholders := by
  rintro n _ w m ⟨us, rfl, ho⟩
  simpa [WrittenColumn.placeholders] using numbers_many numbers_optionPhrase ho

theorem exists_written_of_columns {n m : Nat} {ts : List Token} {columns : List ColumnDef}
    (h : Separated .comma ColumnPhrase n ts columns m) :
    ∃ ws : List WrittenColumn, ws.map WrittenColumn.column = columns ∧
      Separated .comma WrittenPhrase n ts ws m := by
  induction h with
  | one ha =>
    cases ha with
    | column name type ho => exact ⟨[⟨name, type, _⟩], rfl, .one ⟨_, rfl, ho⟩⟩
  | cons ha _ ih =>
    obtain ⟨ws, rfl, hws⟩ := ih
    cases ha with
    | column name type ho => exact ⟨⟨name, type, _⟩ :: ws, rfl, .cons ⟨_, rfl, ho⟩ hws⟩

theorem exists_written_of_createPhrase {n m : Nat} {ts : List Token} {definition : CreateTable}
    (h : CreatePhrase n ts definition m) :
    ∃ ws : List WrittenColumn, definition.columns = ws.map WrittenColumn.column ∧
      m = n + questions ts ∧
      ws.flatMap WrittenColumn.placeholders = List.range' n (questions ts) := by
  have hcolumns : ∀ {us columns}, Parenthesized ColumnPhrase n us columns m →
      ∃ ws : List WrittenColumn, columns = ws.map WrittenColumn.column ∧ m = n + questions us ∧
        ws.flatMap WrittenColumn.placeholders = List.range' n (questions us) := by
    intro us columns hc
    cases hc with
    | empty => exact ⟨[], rfl, rfl, rfl⟩
    | items hs =>
      obtain ⟨ws, rfl, hws⟩ := exists_written_of_columns hs
      exact ⟨ws, rfl, numbers_parenthesized numbers_writtenPhrase (.items hws)⟩
  cases h with
  | always table hc => simpa using hcolumns hc
  | ifNotExists table hc => simpa using hcolumns hc

/-! ### Statements -/

/-- A statement has all the placeholders of its text, but for those of default values that a later one
of the same column overrides. -/
theorem placeholders_of_statementPhrase {n m : Nat} {ts : List Token} {s : Statement}
    (h : StatementPhrase n ts s m) :
    (s.kind ≠ .createTable → s.placeholders = List.range' n (questions ts)) ∧
    ∀ definition, s = .createTable definition →
      ∃ ws : List WrittenColumn, definition.columns = ws.map WrittenColumn.column ∧
        ws.flatMap WrittenColumn.placeholders = List.range' n (questions ts) := by
  cases h with
  | select h => exact ⟨fun _ => (numbers_selectPhrase h).2, by rintro _ ⟨⟩⟩
  | showTables => exact ⟨fun _ => rfl, by rintro _ ⟨⟩⟩
  | insert h => exact ⟨fun _ => (numbers_insertPhrase h).2, by rintro _ ⟨⟩⟩
  | createTable h =>
    refine ⟨fun hkind => absurd rfl hkind, ?_⟩
    rintro _ ⟨⟩
    obtain ⟨ws, hcolumns, -, hnumbers⟩ := exists_written_of_createPhrase h
    exact ⟨ws, hcolumns, hnumbers⟩

end Grammar

/-! ## Calls -/

/-- The stream that so many calls leave, whether they give statements or errors. -/
def Stream.afterCalls (s : Stream) : Nat → Stream
  | 0 => s
  | k + 1 => (s.afterCalls k).readStatement.2

theorem Stream.passes_afterCalls (s : Stream) {j k : Nat} (h : j ≤ k) :
    (s.afterCalls j).Passes (s.afterCalls k) := by
  induction h with
  | refl => exact .refl _
  | step _ ih => exact ih.trans (counting_statement _)

theorem Stream.Passes.drop_eq {s t : Stream} (h : s.Passes t) :
    t.rest.length ≤ s.rest.length ∧ t.rest = s.rest.drop (s.rest.length - t.rest.length) ∧
      t.parameters = s.parameters + questions (s.rest.take (s.rest.length - t.rest.length)) := by
  obtain ⟨taken, hs, ht⟩ := h
  have hlength : s.rest.length - t.rest.length = taken.length := by
    rw [hs, List.length_append, Nat.add_sub_cancel]
  rw [hlength, hs, List.drop_left, List.take_left, List.length_append]
  exact ⟨Nat.le_add_left _ _, rfl, ht⟩

/-- Nothing stands behind the only end of the input. -/
theorem tail_eq_nil_of_end {body pre rest : List Token} (hb : Token.endOfInput ∉ body)
    (h : body ++ [.endOfInput] = pre ++ rest) (hr : rest.headD .endOfInput = .endOfInput) :
    rest.tail = [] := by
  cases rest with
  | nil => rfl
  | cons tok more =>
    obtain rfl : tok = .endOfInput := hr
    rcases List.eq_nil_or_concat more with rfl | ⟨front, last, rfl⟩
    · rfl
    · have hlast : body ++ [.endOfInput] = (pre ++ .endOfInput :: front) ++ [last] := by simpa using h
      have hbody : body = pre ++ .endOfInput :: front := List.append_inj_left' hlast rfl
      exact absurd (by simp [hbody]) hb

/-- A statement is read up to the end of the input. -/
theorem rest_eq_nil_of_readStatement {body pre : List Token} {s : Stream} {a : Statement}
    (hb : Token.endOfInput ∉ body) (hs : body ++ [.endOfInput] = pre ++ s.rest)
    (h : s.readStatement.1 = .ok a) : s.readStatement.2.rest = [] := by
  have hread : Reads statement s a s.readStatement.2 := Prod.ext h rfl
  rw [statement_eq] at hread
  obtain ⟨_, u, hu, h1⟩ := reads_bind.mp hread
  obtain ⟨_, v, hv, h2⟩ := reads_bind.mp h1
  obtain ⟨-, hv'⟩ := reads_pure.mp h2
  obtain ⟨ts, hts, -⟩ := sound_closedStatement hu
  have hend : body ++ [.endOfInput] = (pre ++ ts) ++ u.rest := by rw [hs, hts, List.append_assoc]
  rw [← hv', ← advance_of_reads_expect hv]
  exact tail_eq_nil_of_end hb hend (current_of_reads_expect hv)

theorem readStatement_of_rest_eq_nil {s : Stream} (h : s.rest = []) :
    s.readStatement.1 = .error (.unexpectedToken .endOfInput .statement) := by
  obtain ⟨_, n⟩ := s
  obtain rfl := h
  rfl

/-- The place of a stream after so many calls. -/
theorem exists_position (s : Stream) (h : s.parameters = 0) :
    ∃ position : Nat → Nat, Monotone position ∧ ∀ k, position k ≤ s.rest.length ∧
      (s.afterCalls k).rest = s.rest.drop (position k) ∧
      (s.afterCalls k).parameters = questions (s.rest.take (position k)) := by
  refine ⟨fun k => s.rest.length - (s.afterCalls k).rest.length, fun j k hjk => ?_, fun k => ?_⟩
  · have hle := (s.passes_afterCalls hjk).drop_eq.1
    exact Nat.sub_le_sub_left hle _
  · obtain ⟨-, hrest, hparameters⟩ := (s.passes_afterCalls (Nat.zero_le k)).drop_eq
    rw [show s.afterCalls 0 = s from rfl, h, Nat.zero_add] at hparameters
    exact ⟨Nat.sub_le _ _, hrest, hparameters⟩

theorem placeholders_of_readStatement {body : List Token} {a : Statement}
    (hb : Token.endOfInput ∉ body)
    (h : (Stream.readStatement ⟨body ++ [.endOfInput], 0⟩).1 = .ok a) :
    (a.kind ≠ .createTable → a.placeholders = List.range (questions body)) ∧
    ∀ definition, a = .createTable definition →
      a.placeholders.Sublist (List.range (questions body)) ∧
      ∃ ws : List WrittenColumn, definition.columns = ws.map WrittenColumn.column ∧
        ws.flatMap WrittenColumn.placeholders = List.range (questions body) := by
  obtain ⟨us, m, hus, hbody⟩ := (readStatement_eq_ok_iff_whole hb a).mp h
  have hquestions : questions us = questions body := by
    rcases hbody with rfl | rfl
    · rfl
    · simp
  obtain ⟨hall, hcreate⟩ := placeholders_of_statementPhrase hus
  rw [← List.range_eq_range', hquestions] at hall hcreate
  refine ⟨hall, fun definition hd => ?_⟩
  obtain ⟨ws, hcolumns, hws⟩ := hcreate definition hd
  refine ⟨?_, ws, hcolumns, hws⟩
  rw [hd, Statement.placeholders, hcolumns, ← hws, List.flatMap_map]
  exact List.Sublist.flatMap_right ws fun w _ => w.placeholders_column_sublist

theorem readStatement_behind_statement {body : List Token} {s : Stream}
    (hb : Token.endOfInput ∉ body) (hs : s.rest = body ++ [.endOfInput]) {j k : Nat} {a : Statement}
    (h : (s.afterCalls k).readStatement.1 = .ok a) (hj : k < j) :
    (s.afterCalls j).readStatement.1 = .error (.unexpectedToken .endOfInput .statement) := by
  obtain ⟨pre, hpre, -⟩ := s.passes_afterCalls (Nat.zero_le k)
  have hnil : (s.afterCalls (k + 1)).rest = [] :=
    rest_eq_nil_of_readStatement hb (hs.symm.trans hpre) h
  obtain ⟨taken, hmore, -⟩ := s.passes_afterCalls hj
  rw [hnil] at hmore
  exact readStatement_of_rest_eq_nil (List.append_eq_nil_iff.mp hmore.symm).2

/-- **The numbers of placeholders.** However often a stream is called, and whether the calls give
statements or errors, its place never goes back or beyond the end, and it counts the placeholders in
front of its place. A statement that the first call gives has the placeholders of the text in order, but
for those of default values that a later one of the same column overrides. Behind a statement every call
meets the end of the input. -/
theorem placeholders_of_calls {sql : String} {s : Stream} (h : Stream.ofText sql = .ok s) :
    (∃ position : Nat → Nat, Monotone position ∧ ∀ k, position k ≤ s.rest.length ∧
      (s.afterCalls k).rest = s.rest.drop (position k) ∧
      (s.afterCalls k).parameters = questions (s.rest.take (position k))) ∧
    (∀ a, s.readStatement.1 = .ok a →
      (a.kind ≠ .createTable → a.placeholders = List.range (questions s.rest)) ∧
      ∀ definition, a = .createTable definition →
        a.placeholders.Sublist (List.range (questions s.rest)) ∧ a.placeholders.Pairwise (· < ·) ∧
        ∃ ws : List WrittenColumn, definition.columns = ws.map WrittenColumn.column ∧
          ws.flatMap WrittenColumn.placeholders = List.range (questions s.rest)) ∧
    ∀ k a, (s.afterCalls k).readStatement.1 = .ok a → ∀ j, k < j →
      (s.afterCalls j).readStatement.1 = .error (.unexpectedToken .endOfInput .statement) := by
  rcases hts : tokens sql with e | ts
  · rw [Stream.ofText, hts] at h
    cases h
  rw [Stream.ofText, hts] at h
  cases h
  obtain ⟨body, rfl, hb⟩ := exists_body_of_tokens hts
  have hquestions : questions (body ++ [.endOfInput]) = questions body := by simp
  refine ⟨exists_position _ rfl, fun a ha => ?_, fun k a ha j hj => ?_⟩
  · obtain ⟨hall, hcreate⟩ := placeholders_of_readStatement hb ha
    rw [hquestions]
    refine ⟨hall, fun definition hd => ?_⟩
    obtain ⟨hsublist, hws⟩ := hcreate definition hd
    exact ⟨hsublist, List.pairwise_lt_range.sublist hsublist, hws⟩
  · exact readStatement_behind_statement hb rfl ha hj

/-- The first default value takes the number 0 along. -/
theorem placeholders_of_calls_of_definition :
    let s : Stream := ⟨[.keyword .CREATE, .keyword .TABLE, .identifier "t", .mark .leftParen,
      .identifier "a", .identifier "INT", .keyword .DEFAULT, .mark .question,
      .keyword .DEFAULT, .mark .minus, .mark .question, .mark .rightParen, .endOfInput], 0⟩
    let column : ColumnDef :=
      ⟨"a", "INT", some (.negate (.parameter 1)), false, false, none⟩
    Stream.ofText "CREATE TABLE t (a INT DEFAULT ? DEFAULT -?)" = .ok s ∧
      s.readStatement.1 = .ok (.createTable ⟨"t", false, [column]⟩) ∧
      [1].Sublist (List.range 2) ∧
      ∀ j, 0 < j → (s.afterCalls j).readStatement.1 =
        .error (.unexpectedToken .endOfInput .statement) := by
  intro s column
  have h : Stream.ofText "CREATE TABLE t (a INT DEFAULT ? DEFAULT -?)" = .ok s := by cbv
  have hread : s.readStatement.1 = .ok (.createTable ⟨"t", false, [column]⟩) := rfl
  obtain ⟨-, hfirst, hlater⟩ := placeholders_of_calls h
  exact ⟨h, hread, ((hfirst _ hread).2 _ rfl).1, hlater 0 _ hread⟩

end PullSql.Sql
