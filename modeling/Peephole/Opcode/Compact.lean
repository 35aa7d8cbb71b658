-- The shortest opcode for a constant or a local variable.
import Peephole.Opcode.Table

namespace Peephole.Opcode

/-- Why there is no opcode to choose. -/
inductive NoEncoding where
  | tooWide (value : Int)
  | noSuchSlot (index : Int)
  | noSlotFamily (family : EncodingClass)

/-- The wording of a refusal. -/
def NoEncoding.message : NoEncoding → String
  | .tooWide value => "integer constant " ++ value.repr ++ " does not fit a 32-bit load"
  | .noSuchSlot index => "local index " ++ index.repr ++ " out of range"
  | .noSlotFamily family => family.name ++ " is not a local-variable family"

/-- The opcodes that imply a constant, from minus one to eight. -/
def impliedConstants : List (Int × Opcode) :=
  [(-1, ldcI4M1), (0, ldcI40), (1, ldcI41), (2, ldcI42), (3, ldcI43), (4, ldcI44), (5, ldcI45),
   (6, ldcI46), (7, ldcI47), (8, ldcI48)]

/-- The shortest opcode that loads a constant. -/
def compactInt (value : Int) : Except NoEncoding Opcode :=
  match impliedConstants.lookup value with
  | some op => .ok op
  | none =>
    if -128 ≤ value ∧ value ≤ 127 then .ok ldcI4S
    else if -2147483648 ≤ value ∧ value ≤ 2147483647 then .ok ldcI4
    else .error (.tooWide value)

/-- The opcodes of a family of local variables: the short forms, the one with an index of one
byte, and the one with an index of two. -/
structure SlotFamily where
  implied : List (Int × Opcode)
  narrow : Opcode
  wide : Opcode

/-- The family of a class, if it is about local variables. -/
def slotFamily? : EncodingClass → Option SlotFamily
  | .loadLocal => some ⟨[(0, ldloc0), (1, ldloc1), (2, ldloc2), (3, ldloc3)], ldlocS, ldloc⟩
  | .storeLocal => some ⟨[(0, stloc0), (1, stloc1), (2, stloc2), (3, stloc3)], stlocS, stloc⟩
  | .loadLocalAddress => some ⟨[], ldlocaS, ldloca⟩
  | _ => none

/-- The shortest opcode of a family for a local variable. -/
def compactLocal (family : EncodingClass) (index : Int) : Except NoEncoding Opcode :=
  if index < 0 ∨ 65535 < index then .error (.noSuchSlot index)
  else
    match slotFamily? family with
    | none => .error (.noSlotFamily family)
    | some f =>
      match f.implied.lookup index with
      | some op => .ok op
      | none => .ok (if index ≤ 255 then f.narrow else f.wide)

end Peephole.Opcode
