-- Taking a JSON value apart. What a value does not allow is a fault of its form.
import Peephole.Fault
import Peephole.Text.Integer

namespace Peephole.Json

/-- The field of a name, which has to be there. -/
def item (name : String) : Json → Except Fault Json
  | .obj fields =>
    match field? fields name with
    | some x => .ok x
    | none => .error (.lookup (.missingKey name))
  | _ => .error (.form .notKeyed)

/-- The field of a name, if it is there. -/
def item? (name : String) : Json → Except Fault (Option Json)
  | .obj fields => .ok (field? fields name)
  | _ => .error (.form .notAnObject)

/-- The fields of an object. -/
def fields : Json → Except Fault (List (String × Json))
  | .obj fields => .ok fields
  | _ => .error (.form .notAnObject)

/-- The parts of a value: the items of an array, the characters of a text, the names of the
fields of an object. -/
def parts : Json → Except Fault (List Json)
  | .arr items => .ok items
  | .str s => .ok (s.toList.map fun c => .str (String.singleton c))
  | .obj fields => .ok (fields.map fun f => .str f.1)
  | _ => .error (.form .notIterable)

/-- The parts of a field that may be absent. -/
def partsOf? : Option Json → Except Fault (List Json)
  | some x => x.parts
  | none => .ok []

/-- The whole number that a value gives: what a text writes, or what is left of a number
without its fraction. -/
def integer : Json → Except Fault Int
  | .int n => .ok n
  | .bool b => .ok (if b then 1 else 0)
  | .str s =>
    match Text.readInteger s with
    | some n => .ok n
    | none => .error (.value (.notAnInteger s))
  | .float .nan => .error (.value .notANumber)
  | .float (.infinite _) => .error (.form .infinite)
  | .float (.finite negative m e) =>
    .ok (Binary64.withSign negative (Binary64.wholeMagnitude m e))
  | _ => .error (.form .notNumeric)

/-- Whether a value is a whole number as it stands. Truth values are numbers too. -/
def isWhole : Json → Bool
  | .int _ => true
  | .bool _ => true
  | _ => false

end Peephole.Json
