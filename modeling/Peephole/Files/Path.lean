-- Paths of files: names of folders and at the end the name of a file, with a slash
-- between any two. Empty names and single dots do not count.
import Peephole.Text.Split

namespace Peephole

/-- A path, by the slashes it starts with and its names. -/
structure Path where
  root : String
  names : List String
  deriving DecidableEq

namespace Path

/-! ## Reading and writing -/

/-- The slashes that count at the start of a path: one stands for any number but two. -/
def rootOf (cs : List Char) : String :=
  match (cs.takeWhile (· == '/')).length with
  | 0 => ""
  | 2 => "//"
  | _ => "/"

/-- Whether a name between slashes counts. -/
def isName (cs : List Char) : Bool := !cs.isEmpty && cs != ['.']

/-- The path that a text writes. -/
def ofString (s : String) : Path :=
  ⟨rootOf s.toList, ((Text.split '/' s.toList).filter isName).map String.ofList⟩

/-- The text of a path; a path that leads nowhere else is a dot. -/
def text (p : Path) : String :=
  if p.root.isEmpty && p.names.isEmpty then "."
  else p.root ++ "/".intercalate p.names

/-! ## Endings -/

/-- A name without its ending. The ending starts at the last dot, unless that is the first or the
last character of the name. -/
def stemOf (name : List Char) : List Char :=
  let isNoDot := fun c => c != '.'
  match name.reverse.takeWhile isNoDot, name.reverse.dropWhile isNoDot with
  | _ :: _, _ :: stem => if stem.isEmpty then name else stem.reverse
  | _, _ => name

/-- A name with another ending. -/
def renamed (ending name : String) : String := String.ofList (stemOf name.toList) ++ ending

/-- A path with another ending of its last name. -/
def withEnding (p : Path) (ending : String) : Path :=
  { p with names := p.names.dropLast ++ (p.names.getLast?.toList.map (renamed ending)) }

end Path

end Peephole
