-- What is fixed for each opcode: the operand it takes, what it does, where control
-- goes, and its effect on the evaluation stack. A short form has its operand in the
-- opcode itself.
import Peephole.Opcode.Basic

namespace Peephole.Opcode

/-- The description of an opcode. -/
structure Info where
  shape : OperandShape
  encoding : EncodingClass
  flow : FlowControl := .next
  /-- The operand that a short form implies. -/
  implied : Option Int := none
  /-- The least operand, where there is one. -/
  least : Option Int := none
  /-- The greatest operand, where there is one. -/
  greatest : Option Int := none
  /-- How many values are taken from the stack, unless that depends on the operand. -/
  pops : Option Nat := some 0
  /-- How many values are put on the stack, unless that depends on the operand. -/
  pushes : Option Nat := some 0

/-- A load of an integer constant that the opcode implies. -/
def impliedConstant (n : Int) : Info :=
  { shape := .integer, encoding := .loadIntConstant, implied := some n, pushes := some 1 }

/-- A load of an argument that the opcode implies. -/
def impliedArgument (n : Int) : Info :=
  { shape := .argument, encoding := .loadArgument, implied := some n, pushes := some 1 }

/-- A load of a local variable that the opcode implies. -/
def impliedLoad (n : Int) : Info :=
  { shape := .slot, encoding := .loadLocal, implied := some n, pushes := some 1 }

/-- A store to a local variable that the opcode implies. -/
def impliedStore (n : Int) : Info :=
  { shape := .slot, encoding := .storeLocal, implied := some n, pops := some 1 }

/-- A load that names a slot up to a greatest index. -/
def slotLoad (shape : OperandShape) (encoding : EncodingClass) (greatest : Int) : Info :=
  { shape, encoding, greatest := some greatest, pushes := some 1 }

/-- A store that names a slot up to a greatest index. -/
def slotStore (greatest : Int) : Info :=
  { shape := .slot, encoding := .storeLocal, greatest := some greatest, pops := some 1 }

/-- A load of an integer constant between two bounds. -/
def boundedConstant (encoding : EncodingClass) (least greatest : Int) : Info :=
  { shape := .integer, encoding, least := some least, greatest := some greatest,
    pushes := some 1 }

/-- A branch that takes some values from the stack. -/
def branchInfo (encoding : EncodingClass) (flow : FlowControl) (pops : Nat) : Info :=
  { shape := .label, encoding, flow, pops := some pops }

/-- A call, whose effect on the stack depends on the method. -/
def callInfo (encoding : EncodingClass) (pushes : Option Nat) : Info :=
  { shape := .method, encoding, flow := .call, pops := none, pushes }

/-- The table. A return is taken for neutral on the stack. -/
def info : Opcode → Info
  | nop => { shape := .none, encoding := .nop }
  | ldarg0 => impliedArgument 0
  | ldarg1 => impliedArgument 1
  | ldarg2 => impliedArgument 2
  | ldarg3 => impliedArgument 3
  | ldargS => slotLoad .argument .loadArgument 255
  | ldloc0 => impliedLoad 0
  | ldloc1 => impliedLoad 1
  | ldloc2 => impliedLoad 2
  | ldloc3 => impliedLoad 3
  | ldlocS => slotLoad .slot .loadLocal 255
  | ldloc => slotLoad .slot .loadLocal 65535
  | stloc0 => impliedStore 0
  | stloc1 => impliedStore 1
  | stloc2 => impliedStore 2
  | stloc3 => impliedStore 3
  | stlocS => slotStore 255
  | stloc => slotStore 65535
  | ldlocaS => slotLoad .slot .loadLocalAddress 255
  | ldloca => slotLoad .slot .loadLocalAddress 65535
  | ldcI4M1 => impliedConstant (-1)
  | ldcI40 => impliedConstant 0
  | ldcI41 => impliedConstant 1
  | ldcI42 => impliedConstant 2
  | ldcI43 => impliedConstant 3
  | ldcI44 => impliedConstant 4
  | ldcI45 => impliedConstant 5
  | ldcI46 => impliedConstant 6
  | ldcI47 => impliedConstant 7
  | ldcI48 => impliedConstant 8
  | ldcI4S => boundedConstant .loadIntConstant (-128) 127
  | ldcI4 => boundedConstant .loadIntConstant (-2147483648) 2147483647
  | ldcI8 => boundedConstant .loadLongConstant (-9223372036854775808) 9223372036854775807
  | ldstr => { shape := .string, encoding := .loadString, pushes := some 1 }
  | ldnull => { shape := .none, encoding := .loadNull, pushes := some 1 }
  | ldfld => { shape := .field, encoding := .loadField, pops := some 1, pushes := some 1 }
  | ldsfld => { shape := .field, encoding := .loadStaticField, pushes := some 1 }
  | stfld => { shape := .field, encoding := .storeField, pops := some 2 }
  | stsfld => { shape := .field, encoding := .storeStaticField, pops := some 1 }
  | call => callInfo .call none
  | callvirt => callInfo .callVirtual none
  | newobj => callInfo .newObject (some 1)
  | dup => { shape := .none, encoding := .stack, pops := some 1, pushes := some 2 }
  | pop => { shape := .none, encoding := .stack, pops := some 1 }
  | ret => { shape := .none, encoding := .return, flow := .return }
  | br => branchInfo .branch .branch 0
  | brS => branchInfo .branch .branch 0
  | brtrue => branchInfo .conditionalBranch .conditionalBranch 1
  | brtrueS => branchInfo .conditionalBranch .conditionalBranch 1
  | brfalse => branchInfo .conditionalBranch .conditionalBranch 1
  | brfalseS => branchInfo .conditionalBranch .conditionalBranch 1
  | beq => branchInfo .conditionalBranch .conditionalBranch 2
  | bneUn => branchInfo .conditionalBranch .conditionalBranch 2
  | leave => branchInfo .leave .branch 0
  | leaveS => branchInfo .leave .branch 0
  | throw => { shape := .none, encoding := .throw, flow := .throw, pops := some 1 }
  | endfinally => { shape := .none, encoding := .endFinally, flow := .return }

/-- The kind of operand an opcode carries. -/
def shape (op : Opcode) : OperandShape := op.info.shape

/-- The class of an opcode. -/
def encoding (op : Opcode) : EncodingClass := op.info.encoding

/-- The net effect on the stack, unless it depends on the operand. -/
def Info.delta (i : Info) : Option Int :=
  match i.pops, i.pushes with
  | some pops, some pushes => some (pushes - pops)
  | _, _ => none

/-- Whether an opcode may send control to a label. -/
def isBranch (op : Opcode) : Bool :=
  op.info.flow == .branch || op.info.flow == .conditionalBranch

end Peephole.Opcode
