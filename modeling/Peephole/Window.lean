-- Windows: spans of a body, given by a first index and a length.

namespace Peephole

/-- The span from a first index on. -/
structure Window where
  start : Int
  length : Int
  deriving DecidableEq

namespace Window

/-- The index after the last one. -/
def stop (w : Window) : Int := w.start + w.length

/-- Whether an index lies inside. -/
def contains (w : Window) (index : Int) : Bool :=
  decide (w.start ≤ index) && decide (index < w.stop)

/-- A window as reports show it. -/
def describe (w : Window) : String := "[" ++ w.start.repr ++ ":" ++ w.stop.repr ++ "]"

end Window

end Peephole
