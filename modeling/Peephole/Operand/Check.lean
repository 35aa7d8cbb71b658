-- Which operands an opcode accepts. A short form accepts no operand but the one it
-- implies, a static field goes with the static opcodes, and numbers stay within the
-- bounds of the encoding.
import Peephole.Opcode.Table
import Peephole.Operand.Basic
import Peephole.Json.Text

namespace Peephole

/-- Why an operand is refused, by itself or by its opcode. -/
inductive OperandFault where
  /-- A number that is not whole, or no number. -/
  | constantExpected (got : Json)
  | constantTooWide (value : Int)
  | stringExpected (got : Json)
  | slotExpected (got : Json)
  | slotOutOfRange (index : Int)
  | labelExpected (got : Json)
  | labelNegative (id : Int)
  /-- A bare value that does not say what kind of operand it is. -/
  | uninterpretable (got : Json) (shape : Option OperandShape)
  | required (op : Opcode)
  | notTaken (op : Opcode) (got : Operand)
  | wrongKind (op : Opcode) (got : Operand)
  | notImplied (op : Opcode) (implied got : Int)
  | wrongField (op : Opcode) (field : FieldRef)
  | below (op : Opcode) (value least : Int)
  | above (op : Opcode) (value greatest : Int)

/-! ## Operands of numbers -/

/-- The constant of a value, or why there is none. -/
def Constant.ofInt (value : Int) : Except OperandFault Constant :=
  match Constant.ofInt? value with
  | some c => .ok c
  | none => .error (.constantTooWide value)

/-- The slot of an index, or why there is none. -/
def Slot.ofInt (index : Int) : Except OperandFault Slot :=
  match Slot.ofInt? index with
  | some s => .ok s
  | none => .error (.slotOutOfRange index)

/-- The label of an id, or why there is none. -/
def Label.ofInt (id : Int) : Except OperandFault Label :=
  match Label.ofInt? id with
  | some l => .ok l
  | none => .error (.labelNegative id)

/-! ## Operands of opcodes -/

namespace Opcode

/-- Whether an operand is of the kind that a shape asks for. -/
def fitsShape : OperandShape → Operand → Bool
  | .integer, .constant _ => true
  | .string, .string _ => true
  | .field, .field _ => true
  | .method, .method _ => true
  | .slot, .slot _ => true
  | .argument, .slot _ => true
  | .label, .label _ => true
  | _, _ => false

/-- Whether the fields of an opcode are static. -/
def wantsStatic (op : Opcode) : Bool :=
  op.encoding == .loadStaticField || op.encoding == .storeStaticField

/-- Checks a number against the bounds of an opcode. -/
def checkBounds (op : Opcode) (value : Int) : Except OperandFault Unit :=
  match op.info.least.filter fun least => decide (value < least) with
  | some least => .error (.below op value least)
  | none =>
    match op.info.greatest.filter fun greatest => decide (greatest < value) with
    | some greatest => .error (.above op value greatest)
    | none => .ok ()

/-- Checks a number: it has to be the implied one, or else within the bounds. -/
def checkNumber (op : Opcode) (value : Int) : Except OperandFault Unit :=
  match op.info.implied with
  | some implied => if value = implied then .ok () else .error (.notImplied op implied value)
  | none => checkBounds op value

/-- Checks an operand of the right kind. -/
def checkPart (op : Opcode) : Operand → Except OperandFault Unit
  | .constant c => checkNumber op c.value
  | .slot s => checkNumber op s.index
  | .field f => if f.isStatic = op.wantsStatic then .ok () else .error (.wrongField op f)
  | _ => .ok ()

/-- Checks the operand of an opcode, or that it has none. -/
def check (op : Opcode) : Option Operand → Except OperandFault Unit
  | none => if op.shape = .none ∨ op.info.implied.isSome then .ok () else .error (.required op)
  | some o =>
    if op.shape = .none then .error (.notTaken op o)
    else if fitsShape op.shape o then checkPart op o
    else .error (.wrongKind op o)

/-- The operand that a short form implies. -/
def impliedOperand? (op : Opcode) : Option Operand :=
  op.info.implied.bind fun n =>
    if op.shape = .integer then (Constant.ofInt? n).map .constant else (Slot.ofInt? n).map .slot

/-- The name of the kind of operand that a shape asks for. -/
def expectedKind : OperandShape → String
  | .none => ""
  | .integer => "IntegerConstant"
  | .string => "StringLiteral"
  | .field => "FieldRef"
  | .method => "MethodRef"
  | .slot => "LocalIndex"
  | .argument => "LocalIndex"
  | .label => "Label"

end Opcode

/-! ## Wording -/

/-- The wording of a refusal. -/
def OperandFault.message : OperandFault → String
  | constantExpected got => "integer constant expected, got " ++ got.shown
  | constantTooWide value => "integer constant " ++ value.repr ++ " exceeds 64 bits"
  | stringExpected got => "string literal expected, got " ++ got.shown
  | slotExpected got => "slot index expected, got " ++ got.shown
  | slotOutOfRange index => "slot index " ++ index.repr ++ " out of range"
  | labelExpected got => "label id expected, got " ++ got.shown
  | labelNegative id => "label id " ++ id.repr ++ " is negative"
  | uninterpretable got shape =>
    "cannot interpret " ++ got.shown ++ " as a " ++ (shape.map (·.word)).getD "typed" ++ " operand"
  | required op => op.mnemonic ++ " requires a " ++ op.shape.word ++ " operand"
  | notTaken op got => op.mnemonic ++ " takes no operand, got " ++ got.shown
  | wrongKind op got =>
    op.mnemonic ++ " expects " ++ Opcode.expectedKind op.shape ++ ", got " ++ got.kindName
  | notImplied op implied got =>
    op.mnemonic ++ " implies " ++ implied.repr ++ ", got " ++ got.repr
  | wrongField op field =>
    op.mnemonic ++ " cannot reference " ++ (if op.wantsStatic then "instance" else "static") ++
      " field " ++ field.name
  | below op value least => op.mnemonic ++ " operand " ++ value.repr ++ " below " ++ least.repr
  | above op value greatest =>
    op.mnemonic ++ " operand " ++ value.repr ++ " above " ++ greatest.repr

end Peephole
