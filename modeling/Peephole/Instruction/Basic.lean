-- Instructions. An instruction carries only an operand that its opcode accepts,
-- together with the labels that stand on it and the markers of exception regions
-- that begin or end there.
import Peephole.Operand.Check

namespace Peephole

/-! ## Markers -/

/-- Where an exception region begins, and of what kind, or that it ends. -/
inductive MarkerKind where
  | beginTry | beginCatch | beginFilter | beginFinally | beginFault | regionEnd
  deriving DecidableEq

/-- The word for a kind of marker. -/
def MarkerKind.word : MarkerKind → String
  | beginTry => "try"
  | beginCatch => "catch"
  | beginFilter => "filter"
  | beginFinally => "finally"
  | beginFault => "fault"
  | regionEnd => "end"

/-- Every kind of marker. -/
def MarkerKind.all : List MarkerKind :=
  [.beginTry, .beginCatch, .beginFilter, .beginFinally, .beginFault, .regionEnd]

/-- The kind of marker that a word stands for. -/
def MarkerKind.ofWord? (word : String) : Option MarkerKind := all.find? fun k => k.word == word

/-- A boundary of an exception region. The type that is caught is kept as it was written. -/
structure Marker where
  kind : MarkerKind
  catchType : Json := .null

/-- A marker as a listing shows it. -/
def Marker.describe (m : Marker) : String :=
  if m.catchType.truthy then m.kind.word ++ "(" ++ m.catchType.text ++ ")" else m.kind.word

instance : BEq Marker := ⟨fun a b => a.kind == b.kind && a.catchType == b.catchType⟩

/-! ## Instructions -/

/-- An opcode with an operand that it accepts, or with none where it needs none. -/
structure Instruction where
  opcode : Opcode
  operand : Option Operand
  labels : List Label
  markers : List Marker
  accepted : opcode.check operand = .ok ()

namespace Instruction

/-- Equal instructions have the same opcode, operand and labels and equal markers. -/
instance : BEq Instruction :=
  ⟨fun a b => a.opcode == b.opcode && a.operand == b.operand && a.labels == b.labels &&
    a.markers == b.markers⟩

/-- Puts an instruction together, if the opcode accepts the operand. -/
def make (op : Opcode) (operand : Option Operand) (labels : List Label)
    (markers : List Marker) : Except OperandFault Instruction :=
  match h : op.check operand with
  | .ok () => .ok ⟨op, operand, labels, markers, h⟩
  | .error f => .error f

/-- The mnemonic of the opcode. -/
def mnemonic (i : Instruction) : String := i.opcode.mnemonic

/-- The class of the opcode. -/
def encoding (i : Instruction) : EncodingClass := i.opcode.encoding

/-- Whether control may go to a label from here. -/
def isBranch (i : Instruction) : Bool := i.opcode.isBranch

/-- The label that control may go to. -/
def branchTarget? (i : Instruction) : Option Label :=
  match i.operand with
  | some (.label l) => some l
  | _ => none

/-- The operand, be it written or implied by a short form. -/
def logicalOperand? (i : Instruction) : Option Operand := i.operand.or i.opcode.impliedOperand?

/-- The net effect of a call on the stack. -/
def callDelta (op : Opcode) (m : MethodRef) : Int :=
  if op = .newobj then 1 - m.parameterTypes.length
  else (if m.returnsValue then 1 else 0) - m.argumentCount

/-- The net effect on the stack, if it can be told. -/
def stackDelta? (i : Instruction) : Option Int :=
  match i.opcode.info.delta, i.operand with
  | some d, _ => some d
  | none, some (.method m) => some (callDelta i.opcode m)
  | none, _ => none

/-- The same instruction under other labels. -/
def withLabels (i : Instruction) (labels : List Label) : Instruction := { i with labels }

/-- The same instruction with other markers. -/
def withMarkers (i : Instruction) (markers : List Marker) : Instruction := { i with markers }

/-- The instruction as a listing shows it. -/
def describe (i : Instruction) : String :=
  match i.operand with
  | some o => i.mnemonic ++ " " ++ o.describe
  | none => i.mnemonic

end Instruction

end Peephole
