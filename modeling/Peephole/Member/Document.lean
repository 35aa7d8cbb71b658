-- Members in documents. A document may declare fields in one section and methods in
-- another; what a member leaves out has a default.
import Peephole.Json.Access
import Peephole.Member.Table

namespace Peephole

/-! ## Members -/

/-- Reads a field: an object of its own type by default, and static. -/
def FieldRef.ofJson (x : Json) : Except Fault FieldRef := do
  let type ← x.item "type"
  let name ← x.item "name"
  let fieldType ← x.item? "field_type"
  let static ← x.item? "static"
  return {
    declaringType := type.text
    name := name.text
    fieldType := (fieldType.map Json.text).getD "object"
    isStatic := (static.map Json.truthy).getD true }

/-- Reads a method: without parameters and result by default, and static. -/
def MethodRef.ofJson (x : Json) : Except Fault MethodRef := do
  let type ← x.item "type"
  let name ← x.item "name"
  let params ← Json.partsOf? (← x.item? "params")
  let returns ← x.item? "returns"
  let static ← x.item? "static"
  return {
    declaringType := type.text
    name := name.text
    parameterTypes := params.map Json.text
    returnType := (returns.map Json.text).getD "void"
    isStatic := (static.map Json.truthy).getD true }

/-- The fields of the JSON object that a field is written as. -/
def FieldRef.toFields (f : FieldRef) : List (String × Json) :=
  [("type", .str f.declaringType), ("name", .str f.name), ("field_type", .str f.fieldType),
   ("static", .bool f.isStatic)]

/-- The fields of the JSON object that a method is written as. -/
def MethodRef.toFields (m : MethodRef) : List (String × Json) :=
  [("type", .str m.declaringType), ("name", .str m.name),
   ("params", .arr (m.parameterTypes.map .str)), ("returns", .str m.returnType),
   ("static", .bool m.isStatic)]

/-! ## Tables -/

namespace MemberTable

/-- The entries of a section; a section that says nothing has none. -/
def sectionOf (name : String) (doc : Json) : Except Fault (List (String × Json)) := do
  match ← doc.item? name with
  | some x => if x.truthy then x.fields else .ok []
  | none => .ok []

/-- Reads the entries of a section and puts each in the table as `put` says. -/
def readEntries (read : Json → Except Fault Member)
    (put : MemberTable → String → Member → Except Fault MemberTable) (t : MemberTable)
    (entries : List (String × Json)) : Except Fault MemberTable :=
  entries.foldlM (fun t e => do put t e.1 (← read e.2)) t

/-- Reads the two sections of a document, the fields first. -/
def readSections (put : MemberTable → String → Member → Except Fault MemberTable)
    (t : MemberTable) (doc : Json) : Except Fault MemberTable := do
  let t ← readEntries (fun x => (FieldRef.ofJson x).map .field) put t (← sectionOf "fields" doc)
  readEntries (fun x => (MethodRef.ofJson x).map .method) put t (← sectionOf "methods" doc)

/-- The table of a document; of two members with one name the later one counts. -/
def ofDocument (path : String) (doc : Json) : Except Fault MemberTable :=
  match doc with
  | .obj _ => readSections (fun t key m => .ok (t.insert key m)) OrderedMap.empty doc
  | _ => .error (.value (.membersNotAnObject path))

/-- Declares the members of a document in a table, where a name has one member only. -/
def declare (t : MemberTable) (doc : Json) : Except Fault MemberTable := readSections add t doc

end MemberTable

end Peephole
