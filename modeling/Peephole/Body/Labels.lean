-- Labels in a body: where they stand, which branches go to them, and which
-- instructions carry markers of exception regions.
import Peephole.Body.Basic

namespace Peephole.Body

/-- The indices of the instructions that carry a label. -/
def carriers (b : Body) (l : Label) : List Nat := b.indicesWhere fun i => i.labels.contains l

/-- Where a label stands: of several instructions that carry it the last one counts. -/
def position? (b : Body) (l : Label) : Option Nat := (b.carriers l).getLast?

/-- The indices of the branches that go to a label. -/
def sources (b : Body) (l : Label) : List Nat :=
  b.indicesWhere fun i => i.branchTarget? == some l

/-- Labels without repetition, in the order of their ids. -/
def sorted (ls : List Label) : List Label := ls.eraseDups.mergeSort fun l m => l.id ≤ m.id

/-- The labels that instructions carry. -/
def labels (b : Body) : List Label := sorted (b.flatMap (·.labels))

/-- The labels that branches go to. -/
def targets (b : Body) : List Label := sorted (b.filterMap (·.branchTarget?))

/-- Every label with the index where it stands. -/
def labelPositions (b : Body) : List (Label × Nat) :=
  b.labels.filterMap fun l => (b.position? l).map fun k => (l, k)

/-- Every label that branches go to, with the indices of the branches. -/
def branchSources (b : Body) : List (Label × List Nat) :=
  b.targets.map fun l => (l, b.sources l)

/-- The indices from a start up to a stop of the instructions that carry markers. -/
def markersIn (b : Body) (start : Int) (stop : Int) : List Nat :=
  (b.indicesWhere fun i => !i.markers.isEmpty).filter fun k =>
    decide (start ≤ k) && decide ((k : Int) < stop)

end Peephole.Body
