-- When a span may be removed. Instructions that carry a marker stay, and so do those
-- that a branch outside the span goes to.
import Peephole.Body.Labels
import Peephole.Data.Slice

namespace Peephole

/-- What stands against the removal of a span. -/
inductive Hazard where
  /-- The instruction carries markers. -/
  | marked (index : Nat) (markers : List Marker)
  /-- The instruction carries a label that a branch outside the span goes to. -/
  | targeted (index : Int) (label : Label) (source : Nat)

/-- The hazard in words. -/
def Hazard.message : Hazard → String
  | marked index markers =>
    "instruction " ++ index.repr ++ " carries exception-region marker(s) " ++
      ", ".intercalate (markers.map Marker.describe)
  | targeted index label source =>
    "instruction " ++ index.repr ++ " is the target of " ++ label.describe ++
      " referenced from " ++ source.repr

/-- The index of the instruction at fault. -/
def Hazard.index : Hazard → Int
  | marked index _ => index
  | targeted index _ _ => index

/-- Why a removal is refused. -/
inductive RemovalFault where
  | hazard (h : Hazard)
  /-- The span goes beyond the body. -/
  | noInstruction (index : Int)

namespace Body

/-- The indices of a span in order, as far as there can be instructions: the first index
without one ends the search. -/
def spanIndices (b : Body) (start count : Int) : List Int :=
  (List.range (min count.toNat (2 * b.length + 1))).map fun k : Nat => start + k

/-- The first branch outside a span that goes to a label. -/
def outerSource? (b : Body) (start stop : Int) (l : Label) : Option Nat :=
  (b.sources l).find? fun k => !(decide (start ≤ k) && decide ((k : Int) < stop))

/-- The first label of an instruction that a branch outside a span goes to. -/
def targetFault? (b : Body) (start stop : Int) (index : Int) : Option RemovalFault :=
  match itemAt? b index with
  | none => some (.noInstruction index)
  | some i =>
    i.labels.findSome? fun l =>
      (b.outerSource? start stop l).map fun k => .hazard (.targeted index l k)

/-- Why a span may not be removed: a marker counts before any label, and the first of each. -/
def removalFault? (b : Body) (start count : Int) : Option RemovalFault :=
  match b.markersIn start (start + count) with
  | k :: _ => some (.hazard (.marked k ((b[k]?.map (·.markers)).getD [])))
  | [] => (b.spanIndices start count).findSome? (b.targetFault? start (start + count))

/-! ## Spans inside the body -/

theorem mem_spanIndices {b : Body} {start count index : Int}
    (h : index ∈ b.spanIndices start count) : start ≤ index ∧ index < start + count := by
  unfold spanIndices at h
  obtain ⟨k, hk, rfl⟩ := List.mem_map.mp h
  rw [List.mem_range] at hk
  omega

theorem targetFault?_of_inside {b : Body} {start stop index : Int} (h₀ : 0 ≤ index)
    (h₁ : index < b.length) {f : RemovalFault} (h : b.targetFault? start stop index = some f) :
    ∃ hz, f = .hazard hz := by
  have hi : index.toNat < b.length := by omega
  unfold targetFault? at h
  rw [itemAt?, if_pos h₀, List.getElem?_eq_getElem hi] at h
  obtain ⟨l, _, hl⟩ := List.exists_of_findSome?_eq_some h
  obtain ⟨k, _, rfl⟩ := Option.map_eq_some_iff.mp hl
  exact ⟨_, rfl⟩

/-- Inside the body nothing but a hazard stands against a removal. -/
theorem removalFault?_of_inside {b : Body} {start count : Int} (h₀ : 0 ≤ start)
    (h₁ : start + count ≤ b.length) {f : RemovalFault}
    (h : b.removalFault? start count = some f) : ∃ hz, f = .hazard hz := by
  unfold removalFault? at h
  split at h
  · cases h; exact ⟨_, rfl⟩
  · obtain ⟨index, hm, hf⟩ := List.exists_of_findSome?_eq_some h
    have hs := mem_spanIndices hm
    exact targetFault?_of_inside (by omega) (by omega) hf

end Body

end Peephole
