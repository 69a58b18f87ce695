import EmberClient.CommandLine.Description

/-!
# The command line

`els` with its words as arguments. The standard input holds the surroundings, as one
line of JSON; what the run prints goes to the standard output.
-/

open EmberClient CommandLine in
/-- Runs the command line of the process. -/
def main (words : List String) : IO UInt32 := do
  let text ← (← IO.getStdin).getLine
  let outcome := run (.ofJson ((Json.read? text).getD .null)) words
  IO.print outcome.output
  match outcome.code with
  | some code => return UInt32.ofNat code
  | none =>
    IO.eprintln "the server never answers"
    return 1
