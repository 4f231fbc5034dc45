/-
ParametricPlan/Command/Line.lean

The command line.

`answer` says what the program writes to its two streams for a list of arguments, and the status
it ends with: `0` if all went well, `1` if the arguments are wrong, `2` if a run had faults.
-/
import ParametricPlan.Command.Demo

namespace ParametricPlan.CommandLine

/-- What the program writes, and how it ends. -/
structure Answer where
  stdout : String
  stderr : String
  status : Nat
deriving DecidableEq, Repr

/-- Lines, each with its end. -/
def linesText (lines : List String) : String :=
  String.join (lines.map fun line => line ++ "\n")

/-- How the program is used. -/
def usage : String :=
  linesText
    ["Para parameter engine",
      "",
      "Usage: para <command> [options]",
      "",
      "Commands:",
      "  describe             Print the demo program, one instruction per line",
      "  analyze              List the parameters the demo program reads",
      "  run                  Execute the demo program",
      "  help                 Show this help message",
      "  version              Show version information",
      "",
      "Run options:",
      "  --set R<n>=<value>   Bind a parameter (number, true or false); repeatable",
      "  --halt-on-fault      Stop at the first runtime fault",
      "",
      "Parameters:",
      "  R1 width   R2 height   R3 offset",
      "",
      "Exit status: 0 on success, 1 on usage errors, 2 if faults were reported.",
      "",
      "Examples:",
      "  para describe",
      "  para run --set R1=3 --set R2=4",
      "  RUST_LOG=debug PARA_LOG_TREE=1 para run --set R1=true"]

/-- How a run is asked for. -/
def runUsage : String :=
  "Usage: para run [--set R<n>=<number|true|false>]... [--halt-on-fault]"

/-- The version of the program. -/
def version : String := "0.1.0"

/-- Runs the plan with the options that some arguments give. -/
def run (args : List String) : Answer :=
  match RunOptions.parse args with
  | .error error => ⟨"", linesText ["error: " ++ error.message, runUsage], 1⟩
  | .ok options =>
    let outcome := Demo.run options
    ⟨linesText outcome.actions,
      linesText (outcome.faults.map fun f => "fault: " ++ f.message),
      if outcome.faults.isEmpty then 0 else 2⟩

/-- What the program does with its arguments. -/
def answer : List String → Answer
  | [] => ⟨usage, "", 1⟩
  | command :: args =>
    if command = "describe" then ⟨linesText [Demo.outline], "", 0⟩
    else if command = "analyze" then ⟨Demo.summary.text, "", 0⟩
    else if command = "run" then run args
    else if command ∈ ["help", "--help", "-h"] then ⟨usage, "", 0⟩
    else if command ∈ ["version", "--version", "-v"] then ⟨linesText ["para " ++ version], "", 0⟩
    else ⟨usage, linesText ["Unknown command: " ++ command, ""], 1⟩

end ParametricPlan.CommandLine
