-- Patches in documents. The pattern of a patch may be given by its rules alone; it is
-- then named after the patch.
import Peephole.Body.Document
import Peephole.Patch.Spec
import Peephole.Pattern.Document
import Peephole.Selector.Document

namespace Peephole.Patch

/-- Reads the pattern of a patch. -/
def patternOfJson (table : Option MemberTable) (name : String) : Json → Except Fault Pattern
  | .arr rules => Pattern.ofParts table (.ok name) rules
  | x => Pattern.ofJson table x

/-- Reads a count that is none unless it is given. -/
def countOf (name : String) (x : Json) : Except Fault Int := do
  match ← x.item? name with
  | some y => y.integer
  | none => return 0

/-- Reads a patch. -/
def ofJson (table : Option MemberTable) (x : Json) : Except Fault Patch := do
  let name := (← x.item "name").text
  let pattern ← x.item "pattern"
  let target ← Selector.ofJson (← x.item "target")
  let pattern ← patternOfJson table name pattern
  let keep ← countOf "keep_prefix" x
  let remove ← countOf "remove" x
  let insert ← Body.ofJson? table (← x.item? "insert")
  (make name target pattern keep remove insert).mapError .value

/-- A patch as a JSON object, if its pattern can be written. -/
def toJson (p : Patch) : Except RuleFault Json := do
  return .obj [("name", .str p.name), ("target", p.target.toJson), ("pattern", ← p.pattern.toJson),
    ("keep_prefix", .int p.keep), ("remove", .int p.remove), ("insert", Body.toJson p.insert)]

end Peephole.Patch
