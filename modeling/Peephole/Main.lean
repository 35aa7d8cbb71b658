-- The program. What is to be done is worked out by the library; here it is only read,
-- printed and written.
import Peephole.CommandLine.Job

namespace Peephole.CommandLine

/-- What is found at a path, as far as the error tells. -/
def readPath (p : Path) : IO (Except FileFault String) := do
  try
    return .ok (← IO.FS.readFile p.text)
  catch
    | .noFileOrDirectory .. => return .error .missing
    | .inappropriateType _ 20 _ => return .error .notAFolder
    | _ => return .error .isFolder

/-- Looks at all paths that a job reads. -/
def readInputs (o : Options) : IO Look := do
  let found ← (o.bodies :: o.members :: o.patches).mapM fun p => do return (p, ← readPath p)
  return fun p => (found.lookup p).getD (.error .missing)

/-- Does what is to be done. -/
def performAction : Action → IO Unit
  | .say line => IO.println line
  | .write p text => IO.FS.writeFile p.text text

/-- A number of milliseconds in seconds, with two places. -/
def seconds (milliseconds : Nat) : String :=
  (milliseconds / 1000).repr ++ "." ++ Text.padded 2 (milliseconds % 1000 / 10)

/-- Runs a job. -/
def runOptions (o : Options) : IO UInt32 := do
  let start ← IO.monoMsNow
  let job := patchAll (← readInputs o) o
  for line in shownLines o.verbosity job.records do
    IO.eprintln line
  match job.outcome with
  | .ok r =>
    (actions o r).forM performAction
    IO.println ("total execution time: " ++ seconds ((← IO.monoMsNow) - start) ++ "s")
    return (status o r).toUInt32
  | .error (.message text) =>
    IO.eprintln text
    return 1
  | .error (.fault f) =>
    IO.eprintln ("error: " ++ f.text)
    return 1

/-- How the program is called. -/
def usage : String :=
  "usage: peephole [-h] [--patches PATCHES] [--members MEMBERS] [--builtin] [--out OUT] " ++
    "[--report REPORT] [--strict] [-v] bodies"

end Peephole.CommandLine

open Peephole.CommandLine

/-- Runs the program. -/
def main (arguments : List String) : IO UInt32 := do
  match Request.ofArguments arguments with
  | .run o => runOptions o
  | .help =>
    IO.println usage
    return 0
  | .refused =>
    IO.eprintln usage
    return 2
