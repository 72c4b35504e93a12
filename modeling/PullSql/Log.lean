import PullSql.Settings
import PullSql.Warning

/-!
# Log

A program reports on its error channel: with plain texts, and with warnings that go through a log. The
log belongs to the surroundings of the program. Which warnings a directive lets through, how a line
looks and what the time is are not decided here, so they are parts of a `Log`.

* `Log.filter` is what a log lets through under the settings of a database.
* `Log.written` is the text of reports, and `Log.texts` are the texts of several lists of them.

Messages that are less serious than warnings are left out: a log is one whose directives keep them
back, as the default does.
-/

namespace PullSql

/-! ## Reports -/

/-- What a program says on its error channel. -/
inductive Report where
  | text (s : String)
  | warning (w : Warning)
  deriving DecidableEq, Repr

/-- Whether a report becomes a line of a log that lets through what `admits` says. -/
def Report.isLogged (admits : Warning → Bool) : Report → Bool
  | text _ => false
  | warning w => admits w

/-- The text of a report without the log. -/
def Report.plain : Report → String
  | text s => s
  | warning _ => ""

/-! ## Logs -/

/-- The log that a program finds where it runs. -/
structure Log where
  /-- The directive of the surroundings. -/
  directive? : Option String
  /-- What a directive lets through, or the causes for which it is none. -/
  read : String → Except String (Warning → Bool)
  /-- A line: a time, the place that a warning comes from, its text and its data. -/
  layout : String → String → String → List (String × String) → String
  /-- The time of the line that has `n` lines before it. -/
  clock : Nat → String
  /-- The default directive lets every warning through. -/
  read_warn : read "warn" = .ok fun _ => true

namespace Log

variable (log : Log) (admits : Warning → Bool)

/-- What a log lets through. The directive of the surroundings goes before that of the settings, unless
it is none. -/
def filter (settings : Settings) : Except String (Warning → Bool) :=
  match log.directive?.map log.read with
  | some (.ok admits) => .ok admits
  | _ => log.read settings.logFilter

/-- The line of a warning at a time. -/
def line (time : String) (w : Warning) : String := log.layout time w.origin w.text w.data

/-- The text of a report at a time. -/
def report (time : String) : Report → String
  | .text s => s
  | .warning w => if admits w then log.line time w else ""

/-- How many lines of the log reports become. -/
def lineCount (reports : List Report) : Nat := reports.countP (·.isLogged admits)

/-- The text of reports that come after `n` lines of the log. -/
def written (n : Nat) : List Report → String
  | [] => ""
  | r :: rest => log.report admits (log.clock n) r ++ written (n + lineCount admits [r]) rest

/-- The texts of lists of reports that come one after another. -/
def texts (n : Nat) : List (List Report) → List String
  | [] => []
  | reports :: more => log.written admits n reports :: texts (n + lineCount admits reports) more

section Written

variable (log : Log) (admits : Warning → Bool)

end Written

/-! ## Particular logs -/

/-- The directives that name a level, for a log that knows no others. -/
def readWord (word : String) : Except String (Warning → Bool) :=
  if word ∈ ["off", "error"] then .ok fun _ => false
  else if word ∈ ["warn", "info", "debug", "trace"] then .ok fun _ => true
  else .error "    invalid filter directive"

/-- A line without colours. -/
def plainLayout (time origin text : String) (data : List (String × String)) : String :=
  time ++ "  WARN " ++ origin ++ ": " ++ text ++
    String.join (data.map fun (name, value) => " " ++ name ++ "=" ++ value) ++ "\n"

/-- A log in surroundings that set no directive. -/
def plain (clock : Nat → String) : Log where
  directive? := none
  read := readWord
  layout := plainLayout
  clock := clock
  read_warn := rfl

/-- A log in surroundings that keep everything back. -/
def off : Log := { plain fun _ => "" with directive? := some "off" }

end Log

end PullSql
