/-
ParametricPlan/Main.lean

The program.  It writes what the command line answers and ends with its status.
-/
import ParametricPlan.Command.Line

open ParametricPlan in
def main (args : List String) : IO UInt32 := do
  let answer := CommandLine.answer args
  (← IO.getStdout).putStr answer.stdout
  (← IO.getStderr).putStr answer.stderr
  return answer.status.toUInt32
