-- Runs of the program on a disk.
import Peephole.CommandLine.Job

namespace Peephole.CommandLine

/-! ## Actions -/

/-- What came of some actions: the disk, what was said, and what went wrong. -/
structure Performed where
  disk : Disk
  output : List String
  fault : Option FileFault

/-- Does what is to be done, up to the first file that cannot be written. -/
def perform (d : Disk) : List Action → Performed
  | [] => ⟨d, [], none⟩
  | .say line :: rest =>
    let done := perform d rest
    { done with output := line :: done.output }
  | .write p text :: rest =>
    match d.write p text with
    | .ok d => perform d rest
    | .error f => ⟨d, [], some f⟩

/-! ## Runs -/

/-- How a run ends. -/
inductive Ending where
  | finished (status : Nat)
  | stopped (message : String)
  | failed (f : Fault)
  | helped
  | refused

/-- A run: how it ends, what it says and logs, and the disk it leaves. -/
structure Run where
  ending : Ending
  output : List String
  log : List String
  disk : Disk

/-- Runs a job. -/
def runJob (d : Disk) (o : Options) : Run :=
  let job := patchAll d.look o
  let log := shownLines o.verbosity job.records
  match job.outcome with
  | .ok r =>
    let done := perform d (actions o r)
    match done.fault with
    | none => ⟨.finished (status o r), done.output, log, done.disk⟩
    | some f => ⟨.failed (.file f), done.output, log, done.disk⟩
  | .error (.message text) => ⟨.stopped text, [], log, d⟩
  | .error (.fault f) => ⟨.failed f, [], log, d⟩

/-- Runs the program with a command line. -/
def run (d : Disk) (arguments : List String) : Run :=
  match Request.ofArguments arguments with
  | .run o => runJob d o
  | .help => ⟨.helped, [], [], d⟩
  | .refused => ⟨.refused, [], [], d⟩

end Peephole.CommandLine
