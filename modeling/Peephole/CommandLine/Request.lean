-- What a command line asks for.
import Peephole.CommandLine.Word
import Peephole.Files.Path

namespace Peephole.CommandLine

/-! ## Options -/

/-- What there is to do, and how. -/
structure Options where
  bodies : Path
  patches : List Path
  members : Path
  builtin : Bool
  out : Option Path
  report : Option Path
  strict : Bool
  verbosity : Nat

/-- What a command line asks for. -/
inductive Request where
  | run (o : Options)
  | help
  /-- Nothing that can be done. -/
  | refused

/-! ## Reading -/

/-- What the words up to some point say; the bodies may not be named yet, and there may be words
that say nothing. -/
structure Draft where
  bodies : Option Path := none
  patches : List Path := []
  members : Path := .ofString "members.json"
  builtin : Bool := false
  out : Option Path := none
  report : Option Path := none
  strict : Bool := false
  verbosity : Nat := 0
  surplus : Bool := false

namespace Draft

/-- What is said when something is set. -/
def set (d : Draft) (s : Setting) (value : String) : Draft :=
  let p := Path.ofString value
  match s with
  | .patches => { d with patches := d.patches ++ [p] }
  | .members => { d with members := p }
  | .out => { d with out := some p }
  | .report => { d with report := some p }

/-- What is said when something is switched on. -/
def raise (d : Draft) : Switch → Draft
  | .help => d
  | .builtin => { d with builtin := true }
  | .strict => { d with strict := true }
  | .verbose => { d with verbosity := d.verbosity + 1 }

/-- What is said when a value comes that nothing is set to: the first names the bodies. -/
def name (d : Draft) (value : String) : Draft :=
  match d.bodies with
  | none => { d with bodies := some (.ofString value) }
  | some _ => { d with surplus := true }

/-- What is said when a word says nothing. -/
def ignore (d : Draft) : Draft := { d with surplus := true }

/-- What all the words ask for. -/
def request (d : Draft) : Request :=
  match d.bodies with
  | some bodies =>
    if d.surplus then .refused
    else .run ⟨bodies, d.patches, d.members, d.builtin, d.out, d.report, d.strict, d.verbosity⟩
  | none => .refused

end Draft

/-- What words ask for after others. The word that ends the names says nothing by itself, except
next to the value that names the bodies. A request for help is met where it stands. -/
def readWords (d : Draft) : List Word → Request
  | [] => d.request
  | .value v :: .terminator :: rest => readWords (d.name v) rest
  | .value v :: rest => readWords (d.name v) rest
  | .terminator :: .value v :: rest => readWords (d.name v) rest
  | .terminator :: rest => readWords d.ignore rest
  | .setting s (some v) :: rest => readWords (d.set s v) rest
  | .setting s none :: .value v :: rest => readWords (d.set s v) rest
  | .setting _ none :: _ => .refused
  | .switches ss all :: rest =>
    if ss.contains .help then .help
    else
      let d := ss.foldl Draft.raise d
      readWords (if all then d else d.ignore) rest
  | .misused :: _ => .refused
  | .unknown :: rest => readWords d.ignore rest

/-- What a command line asks for. -/
def Request.ofArguments (arguments : List String) : Request :=
  match words arguments with
  | some ws => readWords {} ws
  | none => .refused

end Peephole.CommandLine
