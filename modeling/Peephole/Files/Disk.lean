-- Disks: the files that can be read, and those that come to be written. A folder is
-- there when a file lies in it.
import Peephole.Data.OrderedMap
import Peephole.Fault
import Peephole.Files.Path
import Peephole.Json.Reader

namespace Peephole

/-! ## Looking -/

/-- What is found when the file at a path is to be read. -/
abbrev Look := Path → Except FileFault String

namespace Look

/-- Whether there is a file or a folder at a path. -/
def finds (look : Look) (p : Path) : Bool :=
  match look p with
  | .ok _ => true
  | .error .isFolder => true
  | .error _ => false

/-- The JSON document in the file at a path. -/
def document (look : Look) (p : Path) : Except Fault Json := do
  let text ← (look p).mapError .file
  match Json.parse text with
  | some x => .ok x
  | none => .error .malformedJson

end Look

/-! ## Places -/

/-- A place: down from the root, or from a folder so many steps above the one where work is
done. -/
structure Location where
  fromRoot : Bool
  above : Nat
  names : List String
  deriving DecidableEq

namespace Location

/-- The folder in which a path starts. -/
def start (p : Path) : Location := ⟨!p.root.isEmpty, 0, []⟩

/-- One folder up. Nothing lies above the root. -/
def up (l : Location) : Location :=
  if l.names.isEmpty then { l with above := if l.fromRoot then 0 else l.above + 1 }
  else { l with names := l.names.dropLast }

/-- The place of a name in a folder. -/
def down (l : Location) (name : String) : Location := { l with names := l.names ++ [name] }

/-- The place that a name leads to; two dots lead up. -/
def follow (l : Location) (name : String) : Location := if name == ".." then l.up else l.down name

/-- Whether a place lies in a folder, at any depth. -/
def isInside (folder l : Location) : Bool :=
  l.fromRoot == folder.fromRoot && l.above == folder.above &&
    folder.names.isPrefixOf l.names && folder.names != l.names

/-- The path to a place below the folder where work is done. -/
def path? (l : Location) : Option Path :=
  if l.fromRoot || l.above != 0 then none else some ⟨"", l.names⟩

end Location

/-! ## Disks -/

/-- Files by their places. -/
abbrev Disk := OrderedMap Location String

namespace Disk

/-- Whether there is a folder at a place. -/
def hasFolder (d : Disk) (l : Location) : Bool :=
  l.names.isEmpty || d.keys.any (Location.isInside l)

/-- The place that names lead to. All that is gone through has to be folders. -/
def follow (d : Disk) (l : Location) : List String → Except FileFault Location
  | [] => .ok l
  | name :: rest =>
    if d.hasFolder l then follow d (l.follow name) rest
    else if d.contains l then .error .notAFolder
    else .error .missing

/-- The place of a path. -/
def locate (d : Disk) (p : Path) : Except FileFault Location := d.follow (.start p) p.names

/-- The text of the file at a path. -/
def look (d : Disk) : Look := fun p => do
  let l ← d.locate p
  if d.hasFolder l then .error .isFolder
  else
    match d.find? l with
    | some text => .ok text
    | none => .error .missing

/-- Writes a file, over the one that is there if there is one. -/
def write (d : Disk) (p : Path) (text : String) : Except FileFault Disk := do
  let l ← d.locate p
  if d.hasFolder l then .error .isFolder else .ok (d.insert l text)

/-- Puts a file at its place, whether its folder is there or not. -/
def place (d : Disk) (p : Path) (text : String) : Disk :=
  d.insert (p.names.foldl Location.follow (.start p)) text

end Disk

end Peephole
