-- Rules. A rule tests one instruction: either for an opcode and an operand, or for
-- a class of opcodes with a condition on the operand. An operand implied by a short
-- form counts like one that is written.
import Peephole.Instruction.Basic
import Peephole.Pattern.Predicate

namespace Peephole

/-! ## Sets of classes -/

/-- A set of classes, given by its members in the order of their names. It is never empty. -/
structure ClassSet where
  members : List EncodingClass
  canonical : members = EncodingClass.byName.filter members.contains
  nonempty : members ≠ []
  deriving DecidableEq

/-- The set of some classes, if there are any. -/
def ClassSet.ofList? (cs : List EncodingClass) : Option ClassSet :=
  let members := EncodingClass.byName.filter cs.contains
  if h : members = [] then none
  else some {
    members
    canonical := by
      apply List.filter_congr
      intro c hc
      simp [members, List.mem_filter, hc]
    nonempty := h }

/-- The set of one class. -/
def ClassSet.singleton (c : EncodingClass) : ClassSet where
  members := [c]
  canonical := by cases c <;> decide
  nonempty := by simp

/-! ## Rules -/

/-- What a rule asks of an operand: a predicate, or any test. -/
inductive Condition where
  | predicate (p : Predicate)
  | custom (test : Option Operand → Bool)

/-- A test of one instruction. -/
inductive Rule where
  /-- The opcode, and the operand or the implied one. -/
  | exact (op : Opcode) (operand : Option Operand)
  /-- One of the classes, and an operand that meets the condition. -/
  | anyOf (classes : ClassSet) (condition : Option Condition)

/-- Whether an operand meets a condition. -/
def Condition.holds (o : Option Operand) : Condition → Bool
  | predicate p => p.holds o
  | custom test => test o

/-- A condition in words. -/
def Condition.describe : Condition → String
  | predicate p => p.describe
  | custom _ => "<predicate>"

/-- Equal conditions are the same predicate; tests cannot be compared. -/
instance : BEq Condition where
  beq
    | .predicate p, .predicate q => p == q
    | _, _ => false

namespace Rule

/-- Whether an instruction passes. -/
def holds (i : Instruction) : Rule → Bool
  | exact op operand => i.opcode == op && i.logicalOperand? == operand.or op.impliedOperand?
  | anyOf classes condition =>
    classes.members.contains i.encoding && condition.all (·.holds i.logicalOperand?)

/-- A rule in words. -/
def describe : Rule → String
  | exact op operand =>
    match operand with
    | some o => op.mnemonic ++ " " ++ o.describe
    | none => op.mnemonic
  | anyOf classes condition =>
    let names := "any(" ++ "|".intercalate (classes.members.map EncodingClass.name) ++ ")"
    match condition with
    | some c => names ++ " where " ++ c.describe
    | none => names

/-- Equal rules ask the same. -/
instance : BEq Rule where
  beq
    | exact op o, exact op' o' => op == op' && o == o'
    | anyOf cs c, anyOf cs' c' => cs == cs' && c == c'
    | _, _ => false

/-! ## Rules for common needs -/

/-- A load of an integer constant in any encoding, of one value or of any. -/
def anyConstant (value : Option Int) : Rule :=
  anyOf (.singleton .loadIntConstant)
    (some (.predicate (match value with
      | some n => .integer n
      | none => .anyInteger)))

/-- A load of a local variable in any encoding. -/
def loadLocal (index : Int) : Rule :=
  anyOf (.singleton .loadLocal) (some (.predicate (.slot index)))

/-- A store to a local variable in any encoding. -/
def storeLocal (index : Int) : Rule :=
  anyOf (.singleton .storeLocal) (some (.predicate (.slot index)))

/-- A load of the address of a local variable in any encoding. -/
def loadLocalAddress (index : Int) : Rule :=
  anyOf (.singleton .loadLocalAddress) (some (.predicate (.slot index)))

end Rule

end Peephole
