-- Bodies in documents: arrays of instructions.
import Peephole.Body.Basic
import Peephole.Instruction.Document

namespace Peephole.Body

/-- Reads the instructions in order. -/
def ofParts (table : Option MemberTable) (xs : List Json) : Except Fault Body :=
  xs.mapM (Instruction.ofJson table)

/-- Reads a body. -/
def ofJson (table : Option MemberTable) (x : Json) : Except Fault Body := do
  ofParts table (← x.parts)

/-- Reads a body that may be absent; then it has no instructions. -/
def ofJson? (table : Option MemberTable) (x : Option Json) : Except Fault Body := do
  ofParts table (← Json.partsOf? x)

/-- A body as a JSON array. -/
def toJson (b : Body) : Json := .arr (b.map Instruction.toJson)

end Peephole.Body
