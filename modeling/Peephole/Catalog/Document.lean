-- Catalogues in documents. A document may declare members of its own, which count for
-- its own patches only. An entry that cannot be read because a value or a name in it is
-- at fault is noted and left out, and the others are read all the same.
import Peephole.Catalog.Basic
import Peephole.Log

namespace Peephole.Catalog

open Log

/-! ## Entries -/

/-- What becomes of an entry. -/
inductive Entry where
  | accepted (p : Patch)
  | rejected (name : Json) (f : Fault)

/-- What stands for an entry without a name. -/
def unnamed : Json := .str "<unnamed>"

/-- What stands for an entry: its name, if it has one that says something. -/
def entryName : Json → Json
  | .obj fields =>
    match Json.field? fields "name" with
    | some name => if name.truthy then name else unnamed
    | none => unnamed
  | _ => unnamed

/-- Reads an entry. A fault of a value or of a name rejects it; any other is passed on. -/
def Entry.ofJson (table : MemberTable) (x : Json) : Except Fault Entry :=
  match Patch.ofJson (some table) x with
  | .ok p => .ok (.accepted p)
  | .error f => if f.isAboutValue || f.isAboutName then .ok (.rejected (entryName x) f) else .error f

/-- What is said about an entry that is rejected. -/
def rejection (name : Json) (f : Fault) : Record :=
  ⟨.warning, .catalog, "[" ++ name.text ++ "] PATCH FAILED: " ++ f.text⟩

/-- Takes an entry into a catalogue. -/
def take (c : Catalog) : Entry → Logged Fault Catalog
  | .accepted p => .of (c.add p)
  | .rejected name f => do
    Logged.note (rejection name f)
    return c.reject name

/-- Takes the entries of a document into a catalogue one by one. -/
def takeAll (table : MemberTable) (c : Catalog) : List Json → Logged Fault Catalog
  | [] => return c
  | x :: rest => do
    let c ← take c (← Logged.of (Entry.ofJson table x))
    takeAll table c rest

/-! ## Documents -/

/-- The object that a document is; a list is one of patches alone. -/
def objectOf (path : String) : Json → Except Fault Json
  | .arr entries => .ok (.obj [("patches", .arr entries)])
  | .obj fields => .ok (.obj fields)
  | _ => .error (.value (.catalogNotADocument path))

/-- The members by which the patches of a document are read: those given, and its own. -/
def membersOf (table : Option MemberTable) (doc : Json) : Except Fault MemberTable := do
  let given := table.getD OrderedMap.empty
  match ← doc.item? "members" with
  | some declared => if declared.truthy then given.declare declared else .ok given
  | none => .ok given

/-- The catalogue of a document. -/
def ofDocument (path : String) (table : Option MemberTable) (doc : Json) :
    Logged Fault Catalog := do
  let doc ← Logged.of (objectOf path doc)
  let table ← Logged.of (membersOf table doc)
  let entries ← Logged.of (do Json.partsOf? (← doc.item? "patches"))
  let c ← takeAll table empty entries
  Logged.note ⟨.debug, .catalog, "loaded " ++ c.size.repr ++ " patch(es) from " ++ path⟩
  return c

end Peephole.Catalog
