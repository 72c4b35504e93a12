import PullSql.Shell

/-!
# Command line

Runs the shell on the standard input. The log is off, since what it writes bears the time.
-/

namespace PullSql

/-- Reads a stream to its end. -/
partial def readAll (stream : IO.FS.Stream) (soFar : String) : IO String := do
  let line ← stream.getLine
  if line.isEmpty then return soFar else readAll stream (soFar ++ line)

end PullSql

/-- The program: arguments and standard input in, two channels and an exit code out. -/
def main (arguments : List String) : IO UInt32 := do
  let input ← PullSql.readAll (← IO.getStdin) ""
  let (transcript, code) := PullSql.runProgram arguments input
  (← IO.getStdout).putStr transcript.stdout
  (← IO.getStderr).putStr transcript.stderr
  return code.toUInt32
