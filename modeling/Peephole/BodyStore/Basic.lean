-- Stores of bodies: the current body of each method, in the order in which the
-- methods came.
import Peephole.Body.Basic
import Peephole.Data.OrderedMap
import Peephole.Fault

namespace Peephole

/-- Bodies by the methods they belong to. -/
abbrev BodyStore := OrderedMap Selector Body

namespace BodyStore

/-- The body of a method. -/
def get (s : BodyStore) (target : Selector) : Except Fault Body :=
  match s.find? target with
  | some b => .ok b
  | none => .error (.lookup (.noBody target))

end BodyStore

end Peephole
