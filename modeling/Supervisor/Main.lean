/-
  The command line.

  * `main` reads the settings file that the arguments name and the setting of
    the log, runs the program on them, and prints what it printed and logged.

  The command runs on the host that `Supervisor.Host` describes.
-/
import Supervisor.Program

namespace Supervisor

/-- A file of the working directory, if it can be read. -/
def readHostFile (path : String) : IO (List (List String × Host.Entry)) := do
  try
    let content ← IO.FS.readBinFile path
    return [((Host.pathParts path.toList).map String.ofList, .file content.toList false)]
  catch _ => return []

/-- The settings file that arguments name. -/
def settingsFileOf (args : List String) : String :=
  match CommandLine.parse args with
  | .ok c => c.config
  | .error _ => Settings.defaultFile

end Supervisor

open Supervisor in
/-- Run the program, print what it leaves, and return its exit code. -/
def main (args : List String) : IO UInt32 := do
  let args := programName :: args
  let files ← readHostFile (settingsFileOf args)
  let setting := (← IO.getEnv Level.variableName).map Utf8.ofString
  let e := Program.execute (Host.trailOf files) args setting none
  let out ← IO.getStdout
  let err ← IO.getStderr
  for event in e.log do
    err.putStrLn event.shown
  out.write ⟨e.stdout.toArray⟩
  err.write ⟨e.stderr.toArray⟩
  out.flush
  return (e.exitCode % 256).toNat.toUInt32
