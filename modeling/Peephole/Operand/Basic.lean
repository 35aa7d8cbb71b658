-- Operands. Each is a plain value, so two that name the same thing are equal
-- wherever they came from.
import Peephole.Opcode.Basic
import Peephole.Text.Quoted
import Peephole.Text.Number

namespace Peephole

/-- An integer of sixty-four bits. -/
structure Constant where
  value : Int
  fits : -9223372036854775808 ≤ value ∧ value ≤ 9223372036854775807
  deriving DecidableEq

/-- The index of a local variable or of an argument. -/
structure Slot where
  index : Nat
  fits : index ≤ 65535
  deriving DecidableEq

/-- The name of a place in a body, by which branches refer to it. -/
structure Label where
  id : Nat
  deriving DecidableEq

/-- A field of a type. -/
structure FieldRef where
  declaringType : String
  name : String
  fieldType : String := "object"
  isStatic : Bool := true
  deriving DecidableEq

/-- A method or constructor of a type. -/
structure MethodRef where
  declaringType : String
  name : String
  parameterTypes : List String := []
  returnType : String := "void"
  isStatic : Bool := true
  deriving DecidableEq

/-- What an instruction works on. -/
inductive Operand where
  | constant (c : Constant)
  | string (s : String)
  | field (f : FieldRef)
  | method (m : MethodRef)
  | slot (s : Slot)
  | label (l : Label)
  deriving DecidableEq

/-! ## Making the bounded ones -/

/-- The constant of a value, if the value has sixty-four bits at most. -/
def Constant.ofInt? (value : Int) : Option Constant :=
  if h : -9223372036854775808 ≤ value ∧ value ≤ 9223372036854775807 then some ⟨value, h⟩ else none

/-- The slot of an index, if there is one. -/
def Slot.ofInt? (index : Int) : Option Slot :=
  if h : 0 ≤ index ∧ index ≤ 65535 then some ⟨index.toNat, by omega⟩ else none

/-- The label of an id, if the id is not negative. -/
def Label.ofInt? (id : Int) : Option Label := if 0 ≤ id then some ⟨id.toNat⟩ else none

theorem Constant.ofInt?_value (c : Constant) : Constant.ofInt? c.value = some c := by
  simp [Constant.ofInt?, c.fits]

theorem Slot.ofInt?_index (s : Slot) : Slot.ofInt? s.index = some s := by
  have h : (s.index : Int) ≤ 65535 := by have := s.fits; omega
  simp [Slot.ofInt?, h]

theorem Label.ofInt?_id (l : Label) : Label.ofInt? l.id = some l := by
  simp [Label.ofInt?]

/-! ## Methods -/

/-- The name that every constructor has. -/
def constructorName : String := ".ctor"

namespace MethodRef

/-- Whether the method is a constructor. -/
def isConstructor (m : MethodRef) : Bool := m.name == constructorName

/-- How many values a call takes from the stack; a method that is not static takes its object. -/
def argumentCount (m : MethodRef) : Nat := m.parameterTypes.length + if m.isStatic then 0 else 1

/-- Whether a call leaves a value. -/
def returnsValue (m : MethodRef) : Bool := m.returnType != "void"

end MethodRef

/-! ## Descriptions -/

/-- The text of a label in a listing. -/
def Label.describe (l : Label) : String := "L_" ++ Text.padded 4 l.id

/-- A field with its type. -/
def FieldRef.describe (f : FieldRef) : String :=
  f.fieldType ++ " " ++ f.declaringType ++ "::" ++ f.name

/-- A method with the types of its parameters and of its result. -/
def MethodRef.describe (m : MethodRef) : String :=
  m.returnType ++ " " ++ m.declaringType ++ "::" ++ m.name ++ "(" ++
    ", ".intercalate m.parameterTypes ++ ")"

/-- A character inside the quotes of a listing. -/
def literalChar (c : Char) : List Char := if c = '\\' ∨ c = '"' then ['\\', c] else [c]

/-- A string literal as a listing shows it. -/
def literal (s : String) : String := String.ofList ('"' :: s.toList.flatMap literalChar ++ ['"'])

namespace Operand

/-- The shape of an operand; a slot has the shape of a local variable. -/
def shape : Operand → OperandShape
  | constant _ => .integer
  | string _ => .string
  | field _ => .field
  | method _ => .method
  | slot _ => .slot
  | label _ => .label

/-- An operand as a listing shows it. -/
def describe : Operand → String
  | constant c => c.value.repr
  | string s => literal s
  | field f => f.describe
  | method m => m.describe
  | slot s => "V_" ++ s.index.repr
  | label l => l.describe

/-- The name of a kind of operand in messages. -/
def kindName : Operand → String
  | constant _ => "IntegerConstant"
  | string _ => "StringLiteral"
  | field _ => "FieldRef"
  | method _ => "MethodRef"
  | slot _ => "LocalIndex"
  | label _ => "Label"

/-- A truth value as messages show it. -/
def shownFlag (b : Bool) : String := if b then "True" else "False"

/-- The parts of an operand, each with its name, as messages show them. -/
def shownParts : Operand → List (String × String)
  | constant c => [("value", c.value.repr)]
  | string s => [("value", Text.quoted s)]
  | field f =>
    [("declaring_type", Text.quoted f.declaringType), ("name", Text.quoted f.name),
     ("field_type", Text.quoted f.fieldType), ("is_static", shownFlag f.isStatic)]
  | method m =>
    [("declaring_type", Text.quoted m.declaringType), ("name", Text.quoted m.name),
     ("parameter_types", Text.parenthesized (m.parameterTypes.map Text.quoted)),
     ("return_type", Text.quoted m.returnType), ("is_static", shownFlag m.isStatic)]
  | slot s => [("index", s.index.repr)]
  | label l => [("id", l.id.repr)]

/-- An operand with all its parts, as messages show it. -/
def shown (o : Operand) : String :=
  o.kindName ++ "(" ++ ", ".intercalate (o.shownParts.map fun p => p.1 ++ "=" ++ p.2) ++ ")"

end Operand

end Peephole
