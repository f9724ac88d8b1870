/-
# The program

The words of the command line say what to check.  The files come from the standard input, as a
manifest of the working directory and whatever else the run may need to see.
-/
import DialogueScript.CommandLine
import DialogueScript.File.Manifest

namespace DialogueScript

/-- Reads a stream to its end. -/
partial def readAll (input : IO.FS.Stream) (text : String) : IO String := do
  let line ← input.getLine
  if line.isEmpty then return text
  readAll input (text ++ line)

end DialogueScript

open DialogueScript in
/-- Runs the program once. -/
def main (words : List String) : IO UInt32 := do
  let manifest ← readAll (← IO.getStdin) ""
  match manifestEntries? manifest with
  | none =>
    IO.eprintln "the standard input is not a manifest"
    return 2
  | some entries =>
    let outcome := runCommandLine (FileSystem.ofEntries ["work"] entries) words
    IO.print outcome.stdout
    IO.eprint outcome.stderr
    return UInt32.ofNat outcome.exitCode
