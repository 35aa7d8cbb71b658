-- Indices that may count from the end, and slices of lists with a step.

namespace Peephole

/-- The item at an index; a negative index counts from the end. -/
def itemAt? {α : Type} (xs : List α) (index : Int) : Option α :=
  if 0 ≤ index then xs[index.toNat]?
  else if 0 ≤ xs.length + index then xs[(xs.length + index).toNat]?
  else none

/-- A choice of items: from a start, up to but not including a stop, by steps. What is left out
means the whole list, one by one. -/
structure Slice where
  start : Option Int
  stop : Option Int
  step : Option Int

namespace Slice

/-- An index brought between two bounds, a negative one counting from the end first. -/
def clamp (length : Nat) (low high index : Int) : Int :=
  if index < 0 then max low (index + length) else min high index

/-- The first index of a slice of a list, and the one it stops before. -/
def bounds (s : Slice) (length : Nat) (step : Int) : Int × Int :=
  if 0 < step then
    ((s.start.map (clamp length 0 length)).getD 0,
     (s.stop.map (clamp length 0 length)).getD length)
  else
    ((s.start.map (clamp length (-1) (length - 1))).getD (length - 1),
     (s.stop.map (clamp length (-1) (length - 1))).getD (-1))

/-- How many steps lie between two indices. -/
def count (first stop step : Int) : Nat :=
  if 0 < step then (if first < stop then ((stop - first - 1) / step + 1).toNat else 0)
  else if stop < first then ((first - stop - 1) / (-step) + 1).toNat
  else 0

/-- The chosen items, or none when the step is zero. -/
def select? {α : Type} (s : Slice) (xs : List α) : Option (List α) :=
  let step := s.step.getD 1
  if step = 0 then none
  else
    let (first, stop) := s.bounds xs.length step
    some ((List.range (count first stop step)).filterMap fun k : Nat => xs[(first + k * step).toNat]?)

end Slice

end Peephole
