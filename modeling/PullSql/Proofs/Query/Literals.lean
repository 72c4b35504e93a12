import PullSql.Proofs.Query.Answer
import PullSql.Proofs.Sql.Literals
import PullSql.Proofs.Sql.Printing

/-!
# Queries for a literal

A query for one text literal answers that text, in one row with one column. So a text is answered as it
is when it is put between quotes with its own quotes doubled, unless a backslash in it escapes one of
them (`literal_of_doubled_quotes`).
-/

namespace PullSql.Query

open Sql (Quotable Select Statement doubledLiteral tokens)

/-- The query for one text and nothing else. -/
def selectText (v : String) : Select := ⟨[.expr (.text v) none], none⟩

theorem ofText_of_tokens_text {sql v : String}
    (h : tokens sql = .ok [.keyword .SELECT, .text v, .endOfInput]) :
    Statement.ofText sql = .ok (.select (selectText v)) :=
  Sql.Printing.ofText_of_whole h (Sql.Printing.whole_of_prints rfl (.text v))

/-- The literal is not looked up and not computed with. -/
theorem collect_text (db : Database) {sql v : String}
    (h : tokens sql = .ok [.keyword .SELECT, .text v, .endOfInput]) :
    db.collect sql = .ok ⟨[⟨db.settings.columnName 0, .string⟩],
      [Row.ofList [(db.settings.columnName 0, .text v)]]⟩ := by
  let p : Plan :=
    .project [⟨db.settings.columnName 0, .string, .constant (.text v)⟩] (.single (.integer 1) .integer)
  have hexecute : db.execute (.select (selectText v)) = .ok (Cursor.ofPlan db.catalog p) := rfl
  have hrows : p.rows db.catalog = [Row.ofList [(db.settings.columnName 0, .text v)]] := rfl
  calc db.collect sql
    _ = (db.execute (.select (selectText v))).map db.collectCursor := by
        rw [Database.collect, Database.query, ofText_of_tokens_text h]
        rfl
    _ = .ok ⟨p.schema, ((Cursor.ofPlan db.catalog p).drain db.catalog).1⟩ := by
        rw [hexecute]
        rfl
    _ = .ok ⟨[⟨db.settings.columnName 0, .string⟩],
          [Row.ofList [(db.settings.columnName 0, .text v)]]⟩ := by
        rw [Cursor.drain_ofPlan, hrows]
        rfl

/-- **Doubled quotes.** A text between quotes, its own quotes doubled, is read as that text and nothing
else exactly when no backslash in it stands in front of a quote or at its end, as a whole input and
behind SELECT. Then the query for it answers it. -/
theorem literal_of_doubled_quotes (v : String) :
    (tokens (doubledLiteral v) = .ok [.text v, .endOfInput] ↔ Quotable v.toList) ∧
      (tokens ("SELECT " ++ doubledLiteral v) = .ok [.keyword .SELECT, .text v, .endOfInput] ↔
        Quotable v.toList) ∧
      (Quotable v.toList → ∀ db : Database, db.collect ("SELECT " ++ doubledLiteral v) =
        .ok ⟨[⟨db.settings.columnName 0, .string⟩],
          [Row.ofList [(db.settings.columnName 0, .text v)]]⟩) := by
  refine ⟨Sql.tokens_doubledLiteral_iff v, Sql.tokens_select_doubledLiteral_iff v, fun h db => ?_⟩
  exact collect_text db ((Sql.tokens_select_doubledLiteral_iff v).mpr h)

/-- Quotes at both ends, backslashes in front of other characters and what looks like SQL. -/
theorem literal_of_doubled_quotes_of_comment :
    let v := "'; -- \\n '' /* \\\\x'"
    Quotable v.toList ∧ tokens (doubledLiteral v) = .ok [.text v, .endOfInput] ∧
      ∀ db : Database, db.collect ("SELECT " ++ doubledLiteral v) =
        .ok ⟨[⟨db.settings.columnName 0, .string⟩],
          [Row.ofList [(db.settings.columnName 0, .text v)]]⟩ := by
  intro v
  have h : Quotable v.toList := by decide
  obtain ⟨htokens, -, hcollect⟩ := literal_of_doubled_quotes v
  exact ⟨h, htokens.mpr h, hcollect h⟩

/-- A backslash at the end of a text takes the closing quote away. One in front of a quote leaves the
doubled quote to close the literal, and what is behind it in the text is read as SQL. -/
theorem backslash_undoes_doubled_quotes :
    tokens (doubledLiteral "\\") = .error (.unterminatedString 0) ∧
      tokens ("SELECT " ++ doubledLiteral "\\', 1 --") =
        .ok [.keyword .SELECT, .text "'", .mark .comma, .integer 1, .endOfInput] ∧
      ¬ ∀ v, tokens (doubledLiteral v) = .ok [.text v, .endOfInput] := by
  have hopen : tokens (doubledLiteral "\\") = .error (.unterminatedString 0) := by cbv
  refine ⟨hopen, by cbv, fun h => ?_⟩
  cases (h "\\").symm.trans hopen

end PullSql.Query
