import Interpose.Command.Run

/-!
# The tool

Reads the environment and the files that a command names, runs it, prints what it reports and
writes the file it leaves.
-/

namespace Interpose.Command

def flawOf : IO.Error → FileFlaw
  | .inappropriateType .. => .isDirectory
  | _ => .notFound

def readInput (path : String) : IO (Except FileFlaw Bytes) := do
  try
    let content ← IO.FS.readBinFile path
    pure (.ok content.toList)
  catch e => pure (.error (flawOf e))

def writeExport (path text : String) : IO (Except FileFlaw Unit) := do
  try
    IO.FS.writeFile path text
    pure (.ok ())
  catch e => pure (.error (flawOf e))

def variableNames : List String :=
  ["SHUNT_CONFIG", "SHUNT_RUNTIME", "SHUNT_WALK_LIMIT", "SHUNT_ALT_ENTRY"]

def readVariables : IO (List (String × String)) := do
  let found ← variableNames.mapM fun name => do
    pure ((← IO.getEnv name).map fun value => (name, value))
  pure (found.filterMap id)

def readSurroundings (words : List String) : IO Surroundings := do
  let environment ← readVariables
  let paths := match read words with
    | .ok command => command.inputPaths (environment.lookup ·)
    | .error _ => []
  let files ← paths.mapM fun path => do pure (path, ← readInput path)
  pure {
    lookup := (environment.lookup ·)
    contentOf := fun path => (files.lookup path).getD (.error .notFound) }

end Interpose.Command

open Interpose Interpose.Command in
def main (words : List String) : IO UInt32 := do
  let outcome := Command.run (← readSurroundings words) words
  let outcome ← match outcome.exported with
    | some (path, text) => do pure (outcome.settle (← writeExport path text))
    | none => pure outcome
  outcome.stdout.forM IO.println
  outcome.stderr.forM IO.eprintln
  pure (UInt32.ofNat outcome.code)
