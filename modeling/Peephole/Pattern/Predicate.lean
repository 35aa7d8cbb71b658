-- Predicates on operands. They are plain values, so that a pattern can be described
-- and written to a document.
import Peephole.Operand.Basic

namespace Peephole

/-- A condition on the operand of an instruction, which may have none. -/
inductive Predicate where
  | anyInteger
  | integer (value : Int)
  | slot (index : Int)
  | equals (operand : Operand)
  | all (ps : List Predicate)
  | either (ps : List Predicate)

namespace Predicate

/-! ## Meaning -/

mutual

/-- Whether an operand satisfies a predicate. No operand satisfies only what asks nothing. -/
def holds (o : Option Operand) : Predicate → Bool
  | anyInteger =>
    match o with
    | some (.constant _) => true
    | _ => false
  | integer value =>
    match o with
    | some (.constant c) => c.value == value
    | _ => false
  | slot index =>
    match o with
    | some (.slot s) => (s.index : Int) == index
    | _ => false
  | equals operand => o == some operand
  | all ps => allHold o ps
  | either ps => someHolds o ps

/-- Whether an operand satisfies all of some predicates. -/
def allHold (o : Option Operand) : List Predicate → Bool
  | [] => true
  | p :: ps => holds o p && allHold o ps

/-- Whether an operand satisfies one of some predicates. -/
def someHolds (o : Option Operand) : List Predicate → Bool
  | [] => false
  | p :: ps => holds o p || someHolds o ps

end

/-! ## Description -/

mutual

/-- A predicate in words. Parts stand without brackets. -/
def describe : Predicate → String
  | anyInteger => "int(*)"
  | integer value => "int(" ++ value.repr ++ ")"
  | slot index => "local(" ++ index.repr ++ ")"
  | equals operand => "==" ++ operand.describe
  | all ps => " and ".intercalate (describeEach ps)
  | either ps => " or ".intercalate (describeEach ps)

/-- Each of some predicates in words. -/
def describeEach : List Predicate → List String
  | [] => []
  | p :: ps => describe p :: describeEach ps

end

/-! ## Equality -/

mutual

/-- Whether two predicates are the same. -/
def same : Predicate → Predicate → Bool
  | anyInteger, anyInteger => true
  | integer m, integer n => m == n
  | slot m, slot n => m == n
  | equals o, equals p => o == p
  | all ps, all qs => sameEach ps qs
  | either ps, either qs => sameEach ps qs
  | _, _ => false

/-- Whether two lists of predicates are the same one by one. -/
def sameEach : List Predicate → List Predicate → Bool
  | [], [] => true
  | p :: ps, q :: qs => same p q && sameEach ps qs
  | _, _ => false

end

instance : BEq Predicate := ⟨same⟩

end Predicate

end Peephole
