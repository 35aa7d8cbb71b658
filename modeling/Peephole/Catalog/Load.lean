-- Loading catalogues. A catalogue that is not there is an empty one.
import Peephole.Catalog.Document
import Peephole.Files.Disk

namespace Peephole.Catalog

open Log

/-- The catalogue in the file at a path. -/
def load (look : Look) (p : Path) (table : Option MemberTable) : Logged Fault Catalog :=
  if look.finds p then do
    ofDocument p.text table (← Logged.of (look.document p))
  else do
    Logged.note
      ⟨.warning, .catalog, "patch catalogue " ++ p.text ++ " not found, no patches loaded"⟩
    return empty

end Peephole.Catalog
