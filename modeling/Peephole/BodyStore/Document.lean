-- Stores of bodies in documents: the bodies in the order in which they are stored, each
-- with its method.
import Peephole.Body.Document
import Peephole.BodyStore.Basic
import Peephole.Selector.Document

namespace Peephole.BodyStore

/-- Adds a body of a document; a method has one body only. -/
def addEntry (path : String) (table : Option MemberTable) (s : BodyStore) (x : Json) :
    Except Fault BodyStore := do
  let target ← Selector.ofJson (← x.item "target")
  if s.contains target then .error (.value (.duplicateBody path target))
  else return s.insert target (← Body.ofJson? table (← x.item? "body"))

/-- The bodies of a document, one by one. -/
def entriesOf (path : String) : Json → Except Fault (List Json)
  | .obj fields =>
    match Json.field? fields "methods" with
    | some (.arr entries) => .ok entries
    | _ => .error (.value (.bodiesNotAList path))
  | _ => .error (.value (.bodiesNotAList path))

/-- The store of a document. -/
def ofDocument (path : String) (table : Option MemberTable) (doc : Json) :
    Except Fault BodyStore := do
  (← entriesOf path doc).foldlM (addEntry path table) OrderedMap.empty

/-- A store as a document. -/
def toJson (s : BodyStore) : Json :=
  .obj [("methods", .arr (s.entries.map fun (target, body) =>
    .obj [("target", target.toJson), ("body", Body.toJson body)]))]

end Peephole.BodyStore
