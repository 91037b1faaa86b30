import BoundSql.CommandLine.Run

/-!
# The program

Runs a command line on the files, the input and the environment of the process.
-/

open BoundSql

/-- The content of a file, if it can be read. -/
def fileTextIfExists (path : String) : IO (Option String) := do
  try
    return some (← IO.FS.readFile path)
  catch _ =>
    return none

/-- The whole input. -/
partial def readWholeInput (input : IO.FS.Stream) (before : String) : IO String := do
  let line ← input.getLine
  if line.isEmpty then return before else readWholeInput input (before ++ line)

/-- The names of the environment that a run looks at. -/
def environmentNames : List String :=
  ["CLAUSEKIT_CONFIG", "CLAUSEKIT_SCHEMA", "XDG_CONFIG_HOME", "HOME"]

def main (arguments : List String) : IO UInt32 := do
  let settings ← environmentNames.mapM fun name => do return (name, ← IO.getEnv name)
  let host : Host IO := {
    fileText? := fileTextIfExists
    readInput := do readWholeInput (← IO.getStdin) ""
    environment := fun name => (settings.find? fun s => s.1 == name).bind (·.2) }
  let outcome ← CommandLine.run host arguments
  IO.print outcome.output
  for notice in outcome.notices do
    IO.eprintln notice
  return outcome.exit
