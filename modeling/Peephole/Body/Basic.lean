-- Bodies: the instructions of a method in order. An edit gives a new body and never
-- changes the one it is made from.
import Peephole.Instruction.Basic

namespace Peephole

/-- The instructions of a method. -/
abbrev Body := List Instruction

/-- Why an edit is refused. -/
inductive EditFault where
  | badPosition (start : Int) (length : Nat)
  | badCount (start count : Int)

/-- The wording of a refusal. -/
def EditFault.message : EditFault → String
  | badPosition start length =>
    "edit position " ++ start.repr ++ " outside of sequence of length " ++ length.repr
  | badCount start count => "cannot remove " ++ count.repr ++ " instruction(s) at " ++ start.repr

namespace Body

/-! ## Edits -/

/-- The body with a span cut out and other instructions put in its place. -/
def splice (b : Body) (start count : Nat) (items : Body) : Body :=
  b.take start ++ items ++ b.drop (start + count)

/-- Replaces a span, which has to lie inside the body. -/
def replace (b : Body) (start count : Int) (items : Body) : Except EditFault Body :=
  if start < 0 ∨ (b.length : Int) < start then .error (.badPosition start b.length)
  else if count < 0 ∨ (b.length : Int) < start + count then .error (.badCount start count)
  else .ok (b.splice start.toNat count.toNat items)

/-- Removes a span. -/
def remove (b : Body) (start count : Int) : Except EditFault Body := b.replace start count []

/-- Puts instructions in before an index. -/
def insert (b : Body) (index : Int) (items : Body) : Except EditFault Body :=
  b.replace index 0 items

/-- A replacement is made exactly when the span lies inside the body. -/
theorem replace_eq_ok (b : Body) (start count : Int) (items : Body) (h₁ : 0 ≤ start)
    (h₂ : 0 ≤ count) (h₃ : start + count ≤ b.length) :
    b.replace start count items = .ok (b.splice start.toNat count.toNat items) := by
  unfold replace
  rw [if_neg (by omega), if_neg (by omega)]

/-! ## Measures -/

/-- The net effect of all instructions on the stack, if it can be told of each. -/
def stackDelta? : Body → Option Int
  | [] => some 0
  | i :: rest =>
    match i.stackDelta?, stackDelta? rest with
    | some d, some total => some (d + total)
    | _, _ => none

/-- The body on one line. -/
def describe (b : Body) : String := "; ".intercalate (b.map Instruction.describe)

/-- The indices of the instructions that satisfy a test. -/
def indicesWhere (b : Body) (p : Instruction → Bool) : List Nat :=
  (List.range b.length).filter fun k => b[k]?.any p

end Body

end Peephole
