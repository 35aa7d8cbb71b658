-- Closed bodies, in which every branch finds its label. Replacing a span that is safe to
-- remove keeps a body closed, and it keeps the markers of exception regions.
import Peephole.Proofs.Body.Hazards
import Peephole.Proofs.Body.Splice

namespace Peephole.Body

/-- Every label that a branch goes to is carried by some instruction. -/
def Closed (b : Body) : Prop := ∀ k l, b.BranchesTo k l → ∃ j, b.Carries j l

theorem closed_iff {b : Body} :
    b.Closed ↔
      (b.all fun i => i.branchTarget?.all fun l => b.any fun j => j.labels.contains l) = true := by
  unfold Closed BranchesTo Carries
  simp only [List.all_eq_true, Option.all_eq_true, List.any_eq_true, List.contains_iff_mem]
  constructor
  · intro h i hi l hl
    obtain ⟨k, hk⟩ := List.mem_iff_getElem?.mp hi
    obtain ⟨_, j, hj, hm⟩ := h k l ⟨i, hk, hl⟩
    exact ⟨j, List.mem_of_getElem? hj, hm⟩
  · rintro h k l ⟨i, hi, hl⟩
    obtain ⟨j, hj, hm⟩ := h i (List.mem_of_getElem? hi) l hl
    obtain ⟨n, hn⟩ := List.mem_iff_getElem?.mp hj
    exact ⟨n, j, hn, hm⟩

instance (b : Body) : Decidable b.Closed := decidable_of_iff _ closed_iff.symm

/-- The markers of all instructions, in order. -/
def allMarkers (b : Body) : List Marker := b.flatMap (·.markers)

variable {b items : Body} {start count : Nat}

/-- A branch of the new body is an old one that stays, whose label stays with it, or a new one,
whose label comes with it. -/
theorem closed_splice (h : start ≤ b.length) (hz : ¬ b.Hazardous start (start + count))
    (hb : b.Closed) (hi : items.Closed) : (b.splice start count items).Closed := by
  intro m l hm
  unfold BranchesTo at hm
  unfold Carries
  simp only [exists_splice_iff h] at hm ⊢
  rcases hm with ⟨k, hk, _, hl⟩ | ⟨k, _, hl⟩
  · obtain ⟨j, hj⟩ := hb k l hl
    exact ⟨_, Or.inl ⟨j, carrier_outside hz hl hk hj, rfl, hj⟩⟩
  · obtain ⟨j, hj⟩ := hi k l hl
    exact ⟨_, Or.inr ⟨j, rfl, hj⟩⟩

theorem allMarkers_eq_nil {c : Body} (h : ∀ i ∈ c, i.markers = []) : allMarkers c = [] := by
  unfold allMarkers
  rw [List.flatMap_eq_nil_iff]
  exact h

/-- What goes has no markers, so without new ones the markers are the same. -/
theorem allMarkers_splice (hz : ¬ b.Hazardous start (start + count))
    (hi : ∀ i ∈ items, i.markers = []) : (b.splice start count items).allMarkers = b.allMarkers := by
  have hspan : ∀ i ∈ (b.drop start).take count, i.markers = [] := by
    intro i hi
    obtain ⟨k, h₀, h₁, hk⟩ := mem_span hi
    exact markers_of_not_hazardous hz h₀ h₁ hk
  have hparts : b.allMarkers = allMarkers (b.take start) ++
      (allMarkers ((b.drop start).take count) ++ allMarkers (b.drop (start + count))) := by
    unfold allMarkers
    conv => lhs; rw [← take_span_drop b start count]
    rw [List.flatMap_append, List.flatMap_append]
  have hsplice : (b.splice start count items).allMarkers =
      allMarkers (b.take start) ++ allMarkers items ++ allMarkers (b.drop (start + count)) := by
    unfold allMarkers splice
    rw [List.flatMap_append, List.flatMap_append]
  rw [hparts, hsplice, allMarkers_eq_nil hspan, allMarkers_eq_nil hi, List.append_nil,
    List.nil_append]

end Peephole.Body
