-- Building instructions in their shortest form.
import Peephole.Instruction.Basic
import Peephole.Opcode.Compact

namespace Peephole

/-- Why an instruction cannot be built. -/
inductive BuildFault where
  | encoding (f : Opcode.NoEncoding)
  | operand (f : OperandFault)

namespace Instruction

/-- An instruction of an opcode, with the operand spelled out unless the opcode implies it. -/
def ofNumber (op : Opcode) (operand : Except OperandFault Operand) :
    Except BuildFault Instruction :=
  if op.info.implied.isSome then (make op none [] []).mapError .operand
  else do (make op (some (← operand.mapError .operand)) [] []).mapError .operand

/-- The shortest load of an integer constant. -/
def loadInt (value : Int) : Except BuildFault Instruction := do
  ofNumber (← (Opcode.compactInt value).mapError .encoding)
    ((Constant.ofInt value).map .constant)

/-- The shortest instruction of a family for a local variable. -/
def ofLocal (family : EncodingClass) (index : Int) : Except BuildFault Instruction := do
  ofNumber (← (Opcode.compactLocal family index).mapError .encoding)
    ((Slot.ofInt index).map .slot)

/-- The shortest load of a local variable. -/
def loadLocal (index : Int) : Except BuildFault Instruction := ofLocal .loadLocal index

/-- The shortest store to a local variable. -/
def storeLocal (index : Int) : Except BuildFault Instruction := ofLocal .storeLocal index

/-- The shortest load of the address of a local variable. -/
def loadLocalAddress (index : Int) : Except BuildFault Instruction :=
  ofLocal .loadLocalAddress index

/-- The load of a string. -/
def loadString (s : String) : Instruction := ⟨.ldstr, some (.string s), [], [], rfl⟩

/-- The call of a method. -/
def callOf (m : MethodRef) : Instruction := ⟨.call, some (.method m), [], [], rfl⟩

end Instruction

end Peephole
