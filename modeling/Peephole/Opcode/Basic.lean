-- The instruction set: the opcodes the library knows, and the words in which they
-- are described.

namespace Peephole

/-- The opcodes, in the order of the table. -/
inductive Opcode where
  | nop
  | ldarg0 | ldarg1 | ldarg2 | ldarg3 | ldargS
  | ldloc0 | ldloc1 | ldloc2 | ldloc3 | ldlocS | ldloc
  | stloc0 | stloc1 | stloc2 | stloc3 | stlocS | stloc
  | ldlocaS | ldloca
  | ldcI4M1 | ldcI40 | ldcI41 | ldcI42 | ldcI43 | ldcI44 | ldcI45 | ldcI46 | ldcI47 | ldcI48
  | ldcI4S | ldcI4 | ldcI8
  | ldstr | ldnull
  | ldfld | ldsfld | stfld | stsfld
  | call | callvirt | newobj
  | dup | pop | ret
  | br | brS | brtrue | brtrueS | brfalse | brfalseS | beq | bneUn
  | leave | leaveS | throw | endfinally
  deriving DecidableEq

/-- The kind of operand an opcode carries. -/
inductive OperandShape where
  | none | integer | string | field | method | slot | argument | label
  deriving DecidableEq

/-- What an opcode does, whatever the width of its encoding. -/
inductive EncodingClass where
  | nop
  | loadIntConstant | loadLongConstant | loadString | loadNull
  | loadArgument | loadLocal | storeLocal | loadLocalAddress
  | loadField | loadStaticField | storeField | storeStaticField
  | call | callVirtual | newObject
  | stack | return | branch | conditionalBranch | leave | throw | endFinally
  deriving DecidableEq

/-- Where control goes after an opcode. -/
inductive FlowControl where
  | next | call | branch | conditionalBranch | return | throw
  deriving DecidableEq

/-! ## Names -/

/-- The word for a shape. -/
def OperandShape.word : OperandShape → String
  | .none => "none"
  | .integer => "integer"
  | .string => "string"
  | .field => "field"
  | .method => "method"
  | .slot => "local"
  | .argument => "argument"
  | .label => "label"

/-- Every shape. -/
def OperandShape.all : List OperandShape :=
  [.none, .integer, .string, .field, .method, .slot, .argument, .label]

/-- The name of a class. -/
def EncodingClass.name : EncodingClass → String
  | .nop => "NOP"
  | .loadIntConstant => "LOAD_INT_CONSTANT"
  | .loadLongConstant => "LOAD_LONG_CONSTANT"
  | .loadString => "LOAD_STRING"
  | .loadNull => "LOAD_NULL"
  | .loadArgument => "LOAD_ARGUMENT"
  | .loadLocal => "LOAD_LOCAL"
  | .storeLocal => "STORE_LOCAL"
  | .loadLocalAddress => "LOAD_LOCAL_ADDRESS"
  | .loadField => "LOAD_FIELD"
  | .loadStaticField => "LOAD_STATIC_FIELD"
  | .storeField => "STORE_FIELD"
  | .storeStaticField => "STORE_STATIC_FIELD"
  | .call => "CALL"
  | .callVirtual => "CALL_VIRTUAL"
  | .newObject => "NEW_OBJECT"
  | .stack => "STACK"
  | .return => "RETURN"
  | .branch => "BRANCH"
  | .conditionalBranch => "CONDITIONAL_BRANCH"
  | .leave => "LEAVE"
  | .throw => "THROW"
  | .endFinally => "END_FINALLY"

/-- Every class, in the order of their names. -/
def EncodingClass.byName : List EncodingClass :=
  [.branch, .call, .callVirtual, .conditionalBranch, .endFinally, .leave, .loadArgument,
   .loadField, .loadIntConstant, .loadLocal, .loadLocalAddress, .loadLongConstant, .loadNull,
   .loadStaticField, .loadString, .newObject, .nop, .return, .stack, .storeField, .storeLocal,
   .storeStaticField, .throw]

theorem EncodingClass.mem_byName (c : EncodingClass) : c ∈ byName := by
  cases c <;> decide

/-- The class of a name. -/
def EncodingClass.ofName? (name : String) : Option EncodingClass :=
  EncodingClass.byName.find? fun c => c.name == name

/-- The name of a kind of control flow. -/
def FlowControl.name : FlowControl → String
  | .next => "NEXT"
  | .call => "CALL"
  | .branch => "BRANCH"
  | .conditionalBranch => "CONDITIONAL_BRANCH"
  | .return => "RETURN"
  | .throw => "THROW"

namespace Opcode

/-- The mnemonic of an opcode. -/
def mnemonic : Opcode → String
  | nop => "nop"
  | ldarg0 => "ldarg.0"
  | ldarg1 => "ldarg.1"
  | ldarg2 => "ldarg.2"
  | ldarg3 => "ldarg.3"
  | ldargS => "ldarg.s"
  | ldloc0 => "ldloc.0"
  | ldloc1 => "ldloc.1"
  | ldloc2 => "ldloc.2"
  | ldloc3 => "ldloc.3"
  | ldlocS => "ldloc.s"
  | ldloc => "ldloc"
  | stloc0 => "stloc.0"
  | stloc1 => "stloc.1"
  | stloc2 => "stloc.2"
  | stloc3 => "stloc.3"
  | stlocS => "stloc.s"
  | stloc => "stloc"
  | ldlocaS => "ldloca.s"
  | ldloca => "ldloca"
  | ldcI4M1 => "ldc.i4.m1"
  | ldcI40 => "ldc.i4.0"
  | ldcI41 => "ldc.i4.1"
  | ldcI42 => "ldc.i4.2"
  | ldcI43 => "ldc.i4.3"
  | ldcI44 => "ldc.i4.4"
  | ldcI45 => "ldc.i4.5"
  | ldcI46 => "ldc.i4.6"
  | ldcI47 => "ldc.i4.7"
  | ldcI48 => "ldc.i4.8"
  | ldcI4S => "ldc.i4.s"
  | ldcI4 => "ldc.i4"
  | ldcI8 => "ldc.i8"
  | ldstr => "ldstr"
  | ldnull => "ldnull"
  | ldfld => "ldfld"
  | ldsfld => "ldsfld"
  | stfld => "stfld"
  | stsfld => "stsfld"
  | call => "call"
  | callvirt => "callvirt"
  | newobj => "newobj"
  | dup => "dup"
  | pop => "pop"
  | ret => "ret"
  | br => "br"
  | brS => "br.s"
  | brtrue => "brtrue"
  | brtrueS => "brtrue.s"
  | brfalse => "brfalse"
  | brfalseS => "brfalse.s"
  | beq => "beq"
  | bneUn => "bne.un"
  | leave => "leave"
  | leaveS => "leave.s"
  | throw => "throw"
  | endfinally => "endfinally"

/-- Every opcode, in the order of the table. -/
def all : List Opcode :=
  [nop, ldarg0, ldarg1, ldarg2, ldarg3, ldargS,
   ldloc0, ldloc1, ldloc2, ldloc3, ldlocS, ldloc,
   stloc0, stloc1, stloc2, stloc3, stlocS, stloc,
   ldlocaS, ldloca,
   ldcI4M1, ldcI40, ldcI41, ldcI42, ldcI43, ldcI44, ldcI45, ldcI46, ldcI47, ldcI48,
   ldcI4S, ldcI4, ldcI8, ldstr, ldnull, ldfld, ldsfld, stfld, stsfld,
   call, callvirt, newobj, dup, pop, ret,
   br, brS, brtrue, brtrueS, brfalse, brfalseS, beq, bneUn,
   leave, leaveS, throw, endfinally]

theorem mem_all (op : Opcode) : op ∈ all := by
  cases op <;> decide

/-- What is said of every opcode can be checked, one opcode after the other. -/
instance (P : Opcode → Prop) [DecidablePred P] : Decidable (∀ op, P op) :=
  decidable_of_iff (∀ op ∈ all, P op) ⟨fun h op => h op (mem_all op), fun h op _ => h op⟩

/-- The mnemonic in capitals, an underscore standing for each dot. -/
def symbol (op : Opcode) : String :=
  String.ofList (op.mnemonic.toList.map fun c => if c = '.' then '_' else c.toUpper)

end Opcode

end Peephole
