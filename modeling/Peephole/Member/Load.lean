-- Loading member tables. A table that is not there is an empty one.
import Peephole.Files.Disk
import Peephole.Log
import Peephole.Member.Document

namespace Peephole.MemberTable

open Log

/-- The table in the file at a path. -/
def load (look : Look) (p : Path) : Logged Fault MemberTable :=
  if look.finds p then
    .of (do ofDocument p.text (← look.document p))
  else do
    Logged.note ⟨.info, .members, "member table " ++ p.text ++ " not found, starting empty"⟩
    return OrderedMap.empty

end Peephole.MemberTable
