-- JSON values. Whole numbers have no bounds and stand apart from floating point
-- ones, and an object keeps its fields in the order in which they were written.
import Peephole.Decimal.Binary64

namespace Peephole

/-- A JSON value. -/
inductive Json where
  | null
  | bool (b : Bool)
  | int (n : Int)
  | float (x : Binary64)
  | str (s : String)
  | arr (items : List Json)
  | obj (fields : List (String × Json))

namespace Json

instance : Inhabited Json := ⟨.null⟩

/-- The field of a name; of fields of one name the first counts. -/
def field? (fields : List (String × Json)) (name : String) : Option Json := fields.lookup name

/-- Whether a value says something: null, false, zero and whatever is empty do not. -/
def truthy : Json → Bool
  | .null => false
  | .bool b => b
  | .int n => n != 0
  | .float x => x.isNonzero
  | .str s => !s.isEmpty
  | .arr items => !items.isEmpty
  | .obj fields => !fields.isEmpty

/-- The whole number that a value stands for in comparisons: true is one and false is none. -/
def wholeNumber? : Json → Option Int
  | .bool b => some (if b then 1 else 0)
  | .int n => some n
  | .float x => x.toInt?
  | _ => none

mutual

/-- Whether two values are equal. Numbers are equal by what they are worth, whichever way they
are written; objects are equal when they have the same fields in any order. -/
def same : Json → Json → Bool
  | .null, .null => true
  | .str s, .str t => s == t
  | .arr xs, .arr ys => sameItems xs ys
  | .obj xs, .obj ys => xs.length == ys.length && sameFields xs ys
  | .float x, .float y => x.sameNumber y
  | a, b =>
    match a.wholeNumber?, b.wholeNumber? with
    | some m, some n => m == n
    | _, _ => false

/-- Whether two lists of values are equal item by item. -/
def sameItems : List Json → List Json → Bool
  | [], [] => true
  | x :: xs, y :: ys => same x y && sameItems xs ys
  | _, _ => false

/-- Whether each of some fields has an equal one among others. -/
def sameFields : List (String × Json) → List (String × Json) → Bool
  | [], _ => true
  | (name, x) :: xs, ys =>
    (match field? ys name with
      | some y => same x y
      | none => false) && sameFields xs ys

end

instance : BEq Json := ⟨same⟩

end Json

end Peephole
