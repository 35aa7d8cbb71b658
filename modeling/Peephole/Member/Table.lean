-- Member tables: the names by which documents refer to fields and methods. A name
-- that is bound stays bound to the same member.
import Peephole.Data.OrderedMap
import Peephole.Fault

namespace Peephole

/-- Members by their names, in the order in which the names were declared. -/
abbrev MemberTable := OrderedMap String Member

namespace MemberTable

/-- Declares a member. A name may be declared again, but only for an equal member. -/
def add (t : MemberTable) (key : String) (m : Member) : Except Fault MemberTable :=
  match t.find? key with
  | some existing =>
    if existing = m then .ok (t.insert key m)
    else .error (.value (.alreadyDeclared key existing))
  | none => .ok (t.insert key m)

/-- Declares members in order up to the first that is refused, and gives its fault. -/
def addAll (t : MemberTable) : List (String × Member) → MemberTable × Option Fault
  | [] => (t, none)
  | (key, m) :: rest =>
    match t.add key m with
    | .ok t => addAll t rest
    | .error f => (t, some f)

/-- The member of a name. -/
def resolve (t : MemberTable) (key : String) : Except Fault Member :=
  match t.find? key with
  | some m => .ok m
  | none => .error (.lookup (.undeclaredMember key))

/-- The field of a name. -/
def field (t : MemberTable) (key : String) : Except Fault FieldRef := do
  match ← t.resolve key with
  | .field f => .ok f
  | .method _ => .error (.lookup (.notAField key))

/-- The method of a name. -/
def method (t : MemberTable) (key : String) : Except Fault MethodRef := do
  match ← t.resolve key with
  | .method m => .ok m
  | .field _ => .error (.lookup (.notAMethod key))

end MemberTable

end Peephole
