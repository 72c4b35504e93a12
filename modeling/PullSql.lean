import PullSql.Main
import PullSql.Proofs.Catalog.Registry
import PullSql.Proofs.Catalog.Scan
import PullSql.Proofs.Cursor.Replay
import PullSql.Proofs.Cursor.Parts
import PullSql.Proofs.Cursor.Names
import PullSql.Proofs.Cursor.Lifecycle
import PullSql.Proofs.Query.Answer
import PullSql.Proofs.Query.LetterCase
import PullSql.Proofs.Sql.Statements
import PullSql.Proofs.Sql.Printing
import PullSql.Proofs.Cursor.SharedNames
import PullSql.Proofs.Shell.Transcript
import PullSql.Proofs.Sql.Lexemes
import PullSql.Proofs.Sql.LineBreaks
import PullSql.Proofs.Shell.Statements
import PullSql.Proofs.Sql.Locality
import PullSql.Proofs.Sql.Prefixes
import PullSql.Proofs.Column.Meaning
import PullSql.Proofs.Evaluator.Integers
import PullSql.Proofs.Cursor.Nesting
import PullSql.Proofs.Sql.Runs
import PullSql.Proofs.Sql.Lines
import PullSql.Proofs.Sql.Faults
import PullSql.Proofs.Sql.Placeholders
import PullSql.Proofs.Cursor.Origins
import PullSql.Proofs.Query.Wildcards
import PullSql.Proofs.Sql.Literals
import PullSql.Proofs.Query.Literals
import PullSql.Proofs.Sql.Calls
import PullSql.Proofs.Sql.Numerals
import PullSql.Proofs.Query.Types
import PullSql.Proofs.Query.OutputNames
import PullSql.Proofs.Cursor.Resets
import PullSql.Proofs.Result.Table
import PullSql.Proofs.Row.Writes
