/-
TransitionRules/Main.lean

The command line program: it reads the variables of the environment and the files that its
arguments name, and prints what `CommandLine.respond` says.
-/
import TransitionRules.CommandLine.Report

open TransitionRules CommandLine

/-- More passes than any run can make. -/
def unlimitedBudget : Nat := 0x4000000000000000

/-- The text of a file, if it can be read. -/
def readText? (file : String) : IO (Option String) := do
  try
    return some (← IO.FS.readFile file)
  catch _ => return none

/-- Reads the files of a list that are there. -/
def readTexts (files : List String) : IO (List (String × String)) :=
  files.filterMapM fun file => do
    return (← readText? file).map fun text => (file, text)

def main (arguments : List String) : IO UInt32 := do
  let vars : Variables := {
    rules := ← IO.getEnv "SETTLE_RULES"
    limit := ← IO.getEnv "SETTLE_MAX_ITERATIONS" }
  let output ←
    match request? vars arguments with
    | some request => do
      let texts ← readTexts request.files
      pure (respond (fun file => texts.lookup file) unlimitedBudget request)
    | none => pure (run (fun _ => none) unlimitedBudget vars arguments)
  IO.print output.stdout
  IO.eprint output.stderr
  return UInt32.ofNat output.code
