import WordAutomata.CommandLine.Arguments

/-!
# The tool

Writes what the command line answers and ends with its exit code.
-/

def main (arguments : List String) : IO UInt32 := do
  let result := WordAutomata.CommandLine.execute arguments
  IO.print result.output
  for message in result.logged do
    IO.eprintln ("ERROR " ++ message)
  IO.eprint result.errors
  return result.exitCode.toUInt32
