-- Listings of bodies: a line for each marker, each label and each instruction, those
-- of a window being pointed at.
import Peephole.Body.Basic
import Peephole.Window

namespace Peephole.Body

/-- The lines of an instruction at an index. -/
def instructionLines (highlight : Option Window) (index : Nat) (i : Instruction) : List String :=
  (i.markers.map fun m => "        ." ++ m.describe) ++
  (i.labels.map fun l => l.describe ++ ":") ++
  [(if highlight.any (·.contains index) then ">" else " ") ++ " " ++ Text.padded 4 index ++
    "  " ++ i.describe]

/-- The lines of a body. -/
def lines (b : Body) (highlight : Option Window) : List String :=
  if b.isEmpty then ["  (empty)"]
  else b.zipIdx.flatMap fun (i, k) => instructionLines highlight k i

/-- The listing of a body. -/
def render (b : Body) (highlight : Option Window) : String :=
  "\n".intercalate (b.lines highlight) ++ "\n"

end Peephole.Body
