import Semver.CommandLine

/-!
# The program

Writes the outcome of its arguments and ends with the exit code of that outcome.
-/

/-- Runs the command that the arguments denote. -/
def main (arguments : List String) : IO UInt32 := do
  let outcome := Semver.CommandLine.run arguments
  (← IO.getStdout).putStr outcome.output
  (← IO.getStderr).putStr outcome.complaints
  return outcome.exitCode.toUInt32
