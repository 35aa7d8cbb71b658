-- Members: the fields and methods of the host program that patches speak of.
import Peephole.Operand.Basic

namespace Peephole

/-- A field or a method. -/
inductive Member where
  | field (f : FieldRef)
  | method (m : MethodRef)
  deriving DecidableEq

namespace Member

/-- The member as the operand of an instruction. -/
def toOperand : Member → Operand
  | field f => .field f
  | method m => .method m

/-- The member as a listing shows it. -/
def describe (m : Member) : String := m.toOperand.describe

end Member

end Peephole
