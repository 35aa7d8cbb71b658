-- Operands in documents. An operand is written as an object that says its kind, or
-- as the name of a declared member, or as a bare value where the opcode leaves no
-- doubt what is meant.
import Peephole.Member.Document

namespace Peephole

/-! ## Parts -/

/-- The constant that a value is. -/
def Constant.ofJson : Json → Except OperandFault Constant
  | .int n => Constant.ofInt n
  | x => .error (.constantExpected x)

/-- The string that a value is. -/
def Operand.stringOfJson : Json → Except OperandFault String
  | .str s => .ok s
  | x => .error (.stringExpected x)

/-- The slot that a value is the index of. -/
def Slot.ofJson : Json → Except OperandFault Slot
  | .int n => Slot.ofInt n
  | x => .error (.slotExpected x)

/-- The label that a value is the id of. -/
def Label.ofJson : Json → Except OperandFault Label
  | .int n => Label.ofInt n
  | x => .error (.labelExpected x)

/-- The label of the id that a value gives, a text or a fraction being made whole. -/
def Label.ofNumber (x : Json) : Except Fault Label := do
  (Label.ofInt (← x.integer)).mapError .operand

/-! ## Operands -/

namespace Operand

/-- Reads an object that says its kind. -/
def ofTagged (x : Json) : Except Fault Operand := do
  let kind := (← x.item? "kind").getD .null
  match kind with
  | .str "int" => (Constant.ofJson (← x.item "value")).map .constant |>.mapError .operand
  | .str "string" => (stringOfJson (← x.item "value")).map .string |>.mapError .operand
  | .str "field" => (FieldRef.ofJson x).map .field
  | .str "method" => (MethodRef.ofJson x).map .method
  | .str "local" => (Slot.ofJson (← x.item "index")).map .slot |>.mapError .operand
  | .str "label" => (Label.ofNumber (← x.item "id")).map .label
  | kind => .error (.value (.unknownOperandKind kind))

/-- Reads the name of a member. -/
def ofReference (table : Option MemberTable) (reference : Json) : Except Fault Operand :=
  match table with
  | some t => (t.resolve reference.text).map Member.toOperand
  | none => .error (.value (.memberWithoutTable reference))

/-- Reads a bare value for an opcode that takes an operand of a shape. -/
def ofBare (shape : Option OperandShape) (x : Json) : Except OperandFault Operand :=
  match shape, x with
  | some .integer, x => if x.isWhole then (Constant.ofJson x).map .constant else refused
  | some .string, .str s => .ok (.string s)
  | some .slot, x => if x.isWhole then (Slot.ofJson x).map .slot else refused
  | some .argument, x => if x.isWhole then (Slot.ofJson x).map .slot else refused
  | some .label, x => if x.isWhole then (Label.ofJson x).map .label else refused
  | _, _ => refused
where
  /-- The value does not say what it means. -/
  refused : Except OperandFault Operand := .error (.uninterpretable x shape)

/-- Reads an operand. -/
def ofJson (table : Option MemberTable) (shape : Option OperandShape) (x : Json) :
    Except Fault Operand :=
  match x with
  | .obj fields =>
    match Json.field? fields "member" with
    | some reference => ofReference table reference
    | none => ofTagged x
  | _ => (ofBare shape x).mapError .operand

/-- An operand as an object that says its kind. -/
def toJson : Operand → Json
  | constant c => .obj [("kind", .str "int"), ("value", .int c.value)]
  | string s => .obj [("kind", .str "string"), ("value", .str s)]
  | field f => .obj (("kind", .str "field") :: f.toFields)
  | method m => .obj (("kind", .str "method") :: m.toFields)
  | slot s => .obj [("kind", .str "local"), ("index", .int s.index)]
  | label l => .obj [("kind", .str "label"), ("id", .int l.id)]

end Operand

end Peephole
