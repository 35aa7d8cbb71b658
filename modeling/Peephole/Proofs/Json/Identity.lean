-- When two JSON values are the very same. Values can be equal to a program and yet be different
-- ones, such as one and true; here such values are told apart.
import Peephole.Json.Reader

namespace Peephole.Json

mutual

/-- Whether two values are the very same, with their fields in the same order. -/
def identical : Json → Json → Bool
  | .null, .null => true
  | .bool a, .bool b => a == b
  | .int m, .int n => m == n
  | .float x, .float y => decide (x = y)
  | .str s, .str t => s == t
  | .arr xs, .arr ys => identicalItems xs ys
  | .obj xs, .obj ys => identicalFields xs ys
  | _, _ => false

/-- Whether two lists of values are the very same. -/
def identicalItems : List Json → List Json → Bool
  | [], [] => true
  | x :: xs, y :: ys => identical x y && identicalItems xs ys
  | _, _ => false

/-- Whether two lists of fields are the very same. -/
def identicalFields : List (String × Json) → List (String × Json) → Bool
  | [], [] => true
  | (m, x) :: xs, (n, y) :: ys => m == n && identical x y && identicalFields xs ys
  | _, _ => false

end

mutual

theorem eq_of_identical : ∀ x y : Json, identical x y = true → x = y
  | .null, y, h => by cases y <;> simp_all [identical]
  | .bool a, y, h => by cases y <;> simp_all [identical]
  | .int m, y, h => by cases y <;> simp_all [identical]
  | .float a, y, h => by cases y <;> simp_all [identical]
  | .str s, y, h => by cases y <;> simp_all [identical]
  | .arr xs, y, h => by
    cases y with
    | arr ys => rw [eq_of_identicalItems xs ys h]
    | _ => cases h
  | .obj xs, y, h => by
    cases y with
    | obj ys => rw [eq_of_identicalFields xs ys h]
    | _ => cases h

theorem eq_of_identicalItems : ∀ xs ys : List Json, identicalItems xs ys = true → xs = ys
  | [], [], _ => rfl
  | [], _ :: _, h => by cases h
  | _ :: _, [], h => by cases h
  | x :: xs, y :: ys, h => by
    rw [identicalItems, Bool.and_eq_true] at h
    rw [eq_of_identical x y h.1, eq_of_identicalItems xs ys h.2]

theorem eq_of_identicalFields :
    ∀ xs ys : List (String × Json), identicalFields xs ys = true → xs = ys
  | [], [], _ => rfl
  | [], _ :: _, h => by cases h
  | _ :: _, [], h => by cases h
  | (m, x) :: xs, (n, y) :: ys, h => by
    rw [identicalFields, Bool.and_eq_true, Bool.and_eq_true] at h
    rw [beq_iff_eq.mp h.1.1, eq_of_identical x y h.1.2, eq_of_identicalFields xs ys h.2]

end

/-- A text is read as a value when what it is read as is the very same. -/
theorem parse_eq_some {s : String} {x : Json} (h : (parse s).any (identical x) = true) :
    parse s = some x := by
  cases hs : parse s with
  | none =>
    rw [hs] at h
    cases h
  | some y =>
    rw [hs] at h
    rw [eq_of_identical x y h]

/-- The same of the characters of a text, which are at hand when it is given as such. -/
theorem parse_eq_some_of_chars {s : String} {cs : List Char} {x : Json} (hs : s = String.ofList cs)
    (h : ((Reader.value (2 * cs.length + 2) (Reader.skip cs)).any fun found =>
      identical x found.1 && (Reader.skip found.2).isEmpty) = true) : parse s = some x := by
  subst hs
  unfold parse
  rw [String.length_ofList, String.toList_ofList]
  cases hv : Reader.value (2 * cs.length + 2) (Reader.skip cs) with
  | none =>
    rw [hv] at h
    cases h
  | some found =>
    rw [hv, Option.any_some, Bool.and_eq_true] at h
    simp only [h.2, if_true, eq_of_identical x found.1 h.1]

end Peephole.Json
