-- Loading stores of bodies.
import Peephole.BodyStore.Document
import Peephole.Files.Disk
import Peephole.Log

namespace Peephole.BodyStore

open Log

/-- The store in the file at a path. -/
def load (look : Look) (p : Path) (table : Option MemberTable) : Logged Fault BodyStore := do
  let s ← Logged.of (do ofDocument p.text table (← look.document p))
  Logged.note ⟨.debug, .bodies, "loaded " ++ s.size.repr ++ " method bodies from " ++ p.text⟩
  return s

end Peephole.BodyStore
