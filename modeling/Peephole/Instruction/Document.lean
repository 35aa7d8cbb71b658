-- Instructions in documents: objects with an opcode and, where there are any, an
-- operand, labels and markers.
import Peephole.Instruction.Basic
import Peephole.Opcode.Lookup
import Peephole.Operand.Document

namespace Peephole

/-! ## Markers -/

/-- The kind of marker that a value says. -/
def MarkerKind.ofJson (x : Json) : Except Fault MarkerKind :=
  match x with
  | .str word =>
    match MarkerKind.ofWord? word with
    | some kind => .ok kind
    | none => .error (.value (.unknownMarkerKind x))
  | _ => .error (.value (.unknownMarkerKind x))

/-- Reads a marker. -/
def Marker.ofJson (x : Json) : Except Fault Marker := do
  let kind ← MarkerKind.ofJson (← x.item "kind")
  let catchType ← x.item? "catch_type"
  return ⟨kind, catchType.getD .null⟩

/-- A marker as a JSON object. -/
def Marker.toJson (m : Marker) : Json :=
  .obj [("kind", .str m.kind.word), ("catch_type", m.catchType)]

/-! ## Instructions -/

/-- The opcode that a value names. -/
def Opcode.ofJson (x : Json) : Except LookupFault Opcode :=
  match Opcode.lookup x.text with
  | some op => .ok op
  | none => .error (.unknownMnemonic x.text)

/-- A field that may be absent, null counting as absence. -/
def Json.present? (name : String) (x : Json) : Except Fault (Option Json) := do
  match ← x.item? name with
  | some .null => return none
  | y => return y

/-- Reads the operand beside an opcode. -/
def Operand.beside (table : Option MemberTable) (op : Opcode) (x : Json) :
    Except Fault (Option Operand) := do
  match ← x.present? "operand" with
  | some y => return some (← Operand.ofJson table (some op.shape) y)
  | none => return none

namespace Instruction

/-- Reads the opcode of an instruction; not to find it is a fault of the instruction. -/
def opcodeOf (x : Json) : Except Fault Opcode :=
  match x.item "op" with
  | .ok name => (Opcode.ofJson name).mapError .noOpcode
  | .error (.lookup f) => .error (.noOpcode f)
  | .error f => .error f

/-- Reads an instruction. -/
def ofJson (table : Option MemberTable) (x : Json) : Except Fault Instruction := do
  let op ← opcodeOf x
  let operand ← Operand.beside table op x
  let labels ← (← Json.partsOf? (← x.item? "labels")).mapM Label.ofNumber
  let markers ← (← Json.partsOf? (← x.item? "blocks")).mapM Marker.ofJson
  (make op operand labels markers).mapError .operand

/-- A field that is written only when it has items. -/
def listField (name : String) (items : List Json) : List (String × Json) :=
  if items.isEmpty then [] else [(name, .arr items)]

/-- An instruction as a JSON object. -/
def toJson (i : Instruction) : Json :=
  .obj (("op", .str i.mnemonic) ::
    (i.operand.toList.map fun o => ("operand", o.toJson)) ++
    listField "labels" (i.labels.map fun l => .int l.id) ++
    listField "blocks" (i.markers.map Marker.toJson))

end Instruction

end Peephole
