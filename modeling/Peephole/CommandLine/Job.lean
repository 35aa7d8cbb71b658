-- Jobs: what is read, what is made of it, and what is to be written and said then. All
-- reading comes before all writing.
import Peephole.BodyStore.Load
import Peephole.Catalog.Builtin
import Peephole.Catalog.Load
import Peephole.CommandLine.Request
import Peephole.Json.Writer
import Peephole.Member.Load
import Peephole.Patch.Patcher

namespace Peephole.CommandLine

open Log

/-! ## Reading -/

/-- Why a job ends early: with a message, or with a fault that nobody explains. -/
inductive Stop where
  | message (text : String)
  | fault (f : Fault)

/-- Checks that the files to read are there and that there are patches to apply. -/
def checkInputs (look : Look) (o : Options) : Except Stop Unit :=
  match (o.bodies :: o.patches).find? fun p => !look.finds p with
  | some p => .error (.message ("missing input file: " ++ p.text))
  | none =>
    if o.patches.isEmpty && !o.builtin then
      .error (.message "no patches selected: pass --patches and/or --builtin")
    else .ok ()

/-- Adds the members that come with the program. -/
def addBuiltinMembers (p : Path) (t : MemberTable) : Except Stop MemberTable :=
  match t.addAll Catalog.builtinMembers.entries with
  | (t, none) => .ok t
  | (_, some f) =>
    .error (.message ("conflicting member declaration in " ++ p.text ++ ": " ++ f.text))

/-- Loads the members. -/
def loadMembers (look : Look) (o : Options) : Logged Stop MemberTable := do
  let t ← (MemberTable.load look o.members).mapError .fault
  if o.builtin then Logged.of (addBuiltinMembers o.members t) else return t

/-- The end of a job for which a catalogue at a path cannot be used. A fault of a value is
explained. -/
def invalidCatalog (p : Path) (f : Fault) : Stop :=
  if f.isAboutValue then .message ("invalid patch catalogue " ++ p.text ++ ": " ++ f.text)
  else .fault f

/-- Adds the catalogue at a path. -/
def addCatalog (look : Look) (t : MemberTable) (c : Catalog) (p : Path) : Logged Stop Catalog :=
  Logged.mapError (invalidCatalog p) do
    let loaded ← Catalog.load look p (some t)
    let c ← Logged.of (c.extend loaded.patches)
    return { c with rejected := c.rejected ++ loaded.rejected }

/-- Adds the catalogues at some paths. -/
def addCatalogs (look : Look) (t : MemberTable) (c : Catalog) : List Path → Logged Stop Catalog
  | [] => return c
  | p :: rest => do addCatalogs look t (← addCatalog look t c p) rest

/-- Loads the catalogue of all patches to apply, those that come with the program first. -/
def loadCatalog (look : Look) (o : Options) (t : MemberTable) : Logged Stop Catalog := do
  let c ←
    if o.builtin then Logged.of ((Catalog.builtin none).mapError .fault) else pure Catalog.empty
  addCatalogs look t c o.patches

/-- What a job starts from. -/
structure Inputs where
  catalog : Catalog
  store : BodyStore

/-- Loads what a job starts from. -/
def loadInputs (look : Look) (o : Options) : Logged Stop Inputs := do
  Logged.of (checkInputs look o)
  let t ← loadMembers look o
  let c ← loadCatalog look o t
  let s ← (BodyStore.load look o.bodies (some t)).mapError .fault
  return ⟨c, s⟩

/-! ## Patching -/

/-- What has come of a job. -/
structure Result where
  report : Report
  rejected : List Json
  store : BodyStore

/-- Applies the patches. -/
def patchInputs (i : Inputs) : Logged Stop Result :=
  let run := (Patcher.applyAll (.ofPatches i.catalog.patches) i.store).2
  ⟨.ok ⟨⟨run.results⟩, i.catalog.rejected, run.store⟩, run.records⟩

/-- Loads what is needed and applies the patches. -/
def patchAll (look : Look) (o : Options) : Logged Stop Result := do
  patchInputs (← loadInputs look o)

/-! ## Writing -/

/-- What is done with a result. -/
inductive Action where
  | write (p : Path) (text : String)
  | say (line : String)

/-- Where the bodies go. -/
def outputPath (o : Options) : Path := o.out.getD (o.bodies.withEnding ".patched.json")

/-- Writes a file and says so. -/
def writeAndSay (what text : String) (p : Path) : List Action :=
  [.write p text, .say (what ++ " written to " ++ p.text)]

/-- What is done with a result, in order. -/
def actions (o : Options) (r : Result) : List Action :=
  writeAndSay "patched bodies" r.store.toJson.document (outputPath o) ++
  o.report.toList.flatMap (writeAndSay "report" r.report.render) ++
  r.report.results.map (fun x => .say x.describe) ++
  r.rejected.map (fun name => .say (name.text ++ ": rejected while loading")) ++
  [.say ("summary: " ++ r.report.describe)]

/-- The exit status: a strict job fails when a patch was not applied. -/
def status (o : Options) (r : Result) : Nat :=
  if o.strict && (!r.rejected.isEmpty || !r.report.ok) then 1 else 0

/-- Whether a record is shown. -/
def isShown (verbosity : Nat) (r : Record) : Bool :=
  match verbosity with
  | 0 => decide (Level.warning.weight ≤ r.level.weight)
  | 1 => decide (Level.info.weight ≤ r.level.weight)
  | _ => true

/-- The lines of the records that are shown. -/
def shownLines (verbosity : Nat) (rs : List Record) : List String :=
  (rs.filter (isShown verbosity)).map Record.line

end Peephole.CommandLine
