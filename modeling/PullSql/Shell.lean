import PullSql.Database
import PullSql.Log
import PullSql.Result.Table
import PullSql.Text.Blank
import PullSql.Text.Typed

/-!
# Shell

A shell reads lines and answers commands and statements. A command is one line that starts with a dot;
a statement runs over any number of lines up to one that ends in a semicolon. Blank lines do not
count, and blanks at the ends of a line are dropped.

* `Shell.readLine` is what one line does: it answers, or it waits in the buffer for more lines.
* `Shell.session` goes through the lines with the buffer.
* `Shell.run` is a whole session: a greeting, the answers in order and a farewell.
-/

namespace PullSql

/-! ## Output -/

/-- Lines of text, each ended. -/
def endedLines (lines : List String) : String := String.join (lines.map (· ++ "\n"))

/-- What a program says on its two channels. -/
structure Output where
  stdout : String := ""
  stderr : List Report := []
  deriving DecidableEq, Repr

/-- Output after output. -/
instance : Append Output := ⟨fun a b => ⟨a.stdout ++ b.stdout, a.stderr ++ b.stderr⟩⟩

theorem Output.stderr_append (a b : Output) : (a ++ b).stderr = a.stderr ++ b.stderr := rfl

/-- Text on the standard channel. -/
def Output.ofText (s : String) : Output := { stdout := s }

/-- Lines on the error channel. -/
def Output.ofErrorLines (lines : List String) : Output := { stderr := [.text (endedLines lines)] }

/-- The report of an error. -/
def Output.ofError (message : String) : Output := .ofErrorLines ["Error: " ++ message]

/-- Warnings on the error channel. -/
def Output.ofWarnings (warnings : List Warning) : Output := { stderr := warnings.map .warning }

/-- What is written on the two channels. -/
structure Transcript where
  stdout : String
  stderr : String
  deriving DecidableEq, Repr

/-- What is written of an output through a log that lets through what `admits` says. -/
def Output.transcript (output : Output) (log : Log) (admits : Warning → Bool) : Transcript :=
  ⟨output.stdout, log.written admits 0 output.stderr⟩

/-! ## Lines -/

/-- The lines of a text as they were typed. Behind the last line end there is a line only if it is not
empty. -/
def linesOf (input : String) : List String :=
  let lines := input.toList.splitOnP (· = '\n')
  let lines := if lines.getLast? = some [] then lines.dropLast else lines
  lines.map fun line => String.ofList (Text.typed line)

/-! ## Answers -/

/-- A database and the form in which rows are shown. -/
structure Shell where
  database : Database := {}
  /-- One JSON object per row instead of a table. -/
  json : Bool := false

namespace Shell

/-- What a session starts with. -/
def greeting : String :=
  endedLines
    ["",
     " CursorDB - an in-memory SQL engine on pull-based cursors",
     " Type '.help' for help, '.quit' to exit",
     ""]

/-- What a session ends with. -/
def farewell : String := endedLines ["Goodbye!"]

/-- The answer to `.help`. -/
def help : String :=
  endedLines
    ["",
     "Commands:",
     "  .help                Show this help message",
     "  .quit                Exit CursorDB",
     "  .tables              List all relations",
     "  .schema <relation>   Show a relation's schema",
     "",
     "SQL (terminate with ';'):",
     "  SELECT <cols> [FROM <relation> [AS alias], ...]",
     "  SHOW TABLES",
     "",
     "Examples:",
     "  SELECT 1 + 2;",
     "  SELECT * FROM tables AS t1, tables AS t2;",
     ""]

/-- The result of a statement as text. -/
def render (shell : Shell) (r : Result) : String :=
  if shell.json then endedLines (r.rows.map Row.json) else r.table

/-- Whether the words are a command that ends the session. -/
def quits : List String → Bool
  | word :: _ => word = ".quit" || word = ".exit"
  | [] => false

/-- The output of any other command. -/
def answerCommand (shell : Shell) : List String → Output
  | [] => {}
  | ".help" :: _ => .ofText help
  | ".tables" :: _ =>
    .ofText (endedLines (shell.database.catalog.scanNames.map ("  " ++ ·)))
  | [".schema"] => .ofErrorLines ["Usage: .schema <relation>"]
  | ".schema" :: name :: _ =>
    match shell.database.catalog.describe name with
    | .ok listing => .ofText (listing ++ "\n")
    | .error e => .ofError e.message
  | word :: _ => .ofErrorLines ["Unknown command: " ++ word, "Type '.help' for available commands."]

/-- The output of what came of a statement. -/
def outcome (shell : Shell) : Except Error Result → Output
  | .ok r => .ofText (shell.render r)
  | .error e => .ofError e.message

/-- The output of SQL text: its warnings, then its result or its error. Blanks around it do not count,
and blanks alone are no statement. -/
def execute (shell : Shell) (sql : String) : Output :=
  let text := Text.trim sql.toList
  if text.isEmpty then {}
  else
    let sql := String.ofList text
    .ofWarnings (shell.database.warnings sql) ++ shell.outcome (shell.database.collect sql)

/-! ## Sessions -/

/-- What a line does when `buffer` are the lines of a statement so far: the output, and the buffer
that the line leaves if the session goes on. -/
def readLine (shell : Shell) (buffer line : String) : Output × Option String :=
  let text := Text.trim line.toList
  if text.isEmpty then ({}, some buffer)
  else if buffer.isEmpty && text.head? = some '.' then
    let words := (Text.words text).map String.ofList
    if quits words then ({}, none) else (shell.answerCommand words, some buffer)
  else
    let buffer := buffer ++ String.ofList text ++ "\n"
    if text.getLast? = some ';' then (shell.execute buffer, some "") else ({}, some buffer)

/-- The output of a session over the lines to come. A statement whose last line is missing when the
lines end is not answered. -/
def session (shell : Shell) (buffer : String) : List String → Output
  | [] => {}
  | line :: rest =>
    match shell.readLine buffer line with
    | (output, some buffer) => output ++ shell.session buffer rest
    | (output, none) => output

/-- The output of a session over a whole input. -/
def run (shell : Shell) (input : String) : Output :=
  .ofText greeting ++ shell.session "" (linesOf input) ++ .ofText farewell

end Shell

/-! ## Arguments -/

/-- Why the arguments of the shell are refused. -/
inductive ArgumentError where
  | missingFilter
  | unknown (argument : String)
  /-- A directive that is none, with the causes. -/
  | invalidFilter (causes : String)
  deriving DecidableEq, Repr

/-- The message of an argument error. -/
def ArgumentError.message : ArgumentError → String
  | missingFilter => "--log expects a filter directive"
  | unknown argument => "unknown argument: " ++ argument
  | invalidFilter causes => "invalid log filter\n\nCaused by:\n" ++ causes

/-- The shell that the arguments ask for. -/
def Shell.ofArguments (shell : Shell) : List String → Except ArgumentError Shell
  | [] => .ok shell
  | "--json" :: rest => ofArguments { shell with json := true } rest
  | ["--log"] => .error .missingFilter
  | "--log" :: filter :: rest =>
    let settings := { shell.database.settings with logFilter := filter }
    ofArguments { shell with database := { shell.database with settings } } rest
  | argument :: _ => .error (.unknown argument)

/-- What a session writes on the input through a log, or why there is none. -/
def Shell.transcript (shell : Shell) (log : Log) (input : String) : Except ArgumentError Transcript :=
  match log.filter shell.database.settings with
  | .ok admits => .ok ((shell.run input).transcript log admits)
  | .error causes => .error (.invalidFilter causes)

/-- What the program writes for its arguments and its input, and its exit code. -/
def runProgram (arguments : List String) (input : String) (log : Log := .off) :
    Transcript × UInt8 :=
  match Shell.ofArguments {} arguments >>= fun shell => shell.transcript log input with
  | .ok transcript => (transcript, 0)
  | .error e => (⟨"", endedLines ["Error: " ++ e.message]⟩, 1)

end PullSql
