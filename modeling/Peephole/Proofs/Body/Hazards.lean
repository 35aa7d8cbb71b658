-- What stands against the removal of a span, said of the indices alone: a marker in the
-- span, or a label in the span that a branch outside goes to. A removal inside the body
-- is refused for one of these and for nothing else.
import Mathlib.Tactic.ByContra
import Peephole.Body.Removal
import Peephole.Proofs.Body.Tables

namespace Peephole

namespace Body

/-- Some instruction of a span carries a marker, or a label that a branch outside the span
goes to. -/
def Hazardous (b : Body) (start stop : Nat) : Prop :=
  ∃ k, start ≤ k ∧ k < stop ∧
    (b.Marked k ∨ ∃ l, b.Carries k l ∧ ∃ s, b.BranchesTo s l ∧ ¬ (start ≤ s ∧ s < stop))

/-! ## The search for a hazard -/

theorem mem_spanIndices_iff {b : Body} {start count : Nat} (h : start + count ≤ b.length)
    {index : Int} :
    index ∈ b.spanIndices start count ↔
      ∃ k : Nat, index = k ∧ start ≤ k ∧ k < start + count := by
  unfold spanIndices
  rw [Int.toNat_natCast, List.mem_map]
  constructor
  · rintro ⟨k, hk, rfl⟩
    rw [List.mem_range] at hk
    exact ⟨start + k, by omega, by omega, by omega⟩
  · rintro ⟨k, rfl, h₀, h₁⟩
    refine ⟨k - start, List.mem_range.mpr (by omega), by omega⟩

theorem outerSource?_eq_none_iff {b : Body} {start stop : Nat} {l : Label} :
    b.outerSource? start stop l = none ↔ ∀ s, b.BranchesTo s l → start ≤ s ∧ s < stop := by
  unfold outerSource?
  rw [List.find?_eq_none]
  simp only [mem_sources, Bool.not_eq_true', Bool.not_eq_false, Bool.and_eq_true,
    decide_eq_true_eq, Int.ofNat_le, Int.ofNat_lt]

theorem targetFault?_eq_none_iff {b : Body} (start stop : Nat) {k : Nat} (h : k < b.length) :
    b.targetFault? start stop k = none ↔
      ∀ l, b.Carries k l → ∀ s, b.BranchesTo s l → start ≤ s ∧ s < stop := by
  have hk : itemAt? b k = some b[k] := by
    rw [itemAt?, if_pos (by omega), Int.toNat_natCast, List.getElem?_eq_getElem h]
  unfold targetFault?
  rw [hk]
  simp only [List.findSome?_eq_none_iff, Option.map_eq_none_iff, outerSource?_eq_none_iff]
  constructor
  · rintro hl l ⟨i, hi, hm⟩
    rw [List.getElem?_eq_getElem h, Option.some.injEq] at hi
    exact hl l (hi ▸ hm)
  · intro hl l hm
    exact hl l ⟨b[k], List.getElem?_eq_getElem h, hm⟩

/-- A removal inside the body is refused exactly when there is a hazard. -/
theorem removalFault?_eq_none_iff {b : Body} {start count : Nat} (h : start + count ≤ b.length) :
    b.removalFault? start count = none ↔ ¬ b.Hazardous start (start + count) := by
  unfold removalFault? Hazardous
  split
  · rename_i k ks hm
    obtain ⟨hk, h₀, h₁⟩ := mem_markersIn.mp (hm ▸ List.mem_cons_self (a := k) (l := ks))
    constructor
    · intro hn
      cases hn
    · intro hsafe
      exact absurd ⟨k, by omega, by omega, Or.inl hk⟩ hsafe
  · rename_i hm
    have hclean : ∀ k, start ≤ k → k < start + count → ¬ b.Marked k := by
      intro k h₀ h₁ hk
      have : k ∈ b.markersIn start (start + count) := mem_markersIn.mpr ⟨hk, by omega, by omega⟩
      rw [hm] at this
      cases this
    rw [List.findSome?_eq_none_iff]
    constructor
    · rintro hf ⟨k, h₀, h₁, hk | ⟨l, hl, s, hs, hout⟩⟩
      · exact hclean k h₀ h₁ hk
      · have hn := hf k ((mem_spanIndices_iff h).mpr ⟨k, rfl, h₀, h₁⟩)
        exact hout ((targetFault?_eq_none_iff start (start + count) (by omega)).mp hn l hl s hs)
    · intro hsafe index hi
      obtain ⟨k, rfl, h₀, h₁⟩ := (mem_spanIndices_iff h).mp hi
      refine (targetFault?_eq_none_iff start (start + count) (by omega)).mpr ?_
      intro l hl s hs
      by_contra hout
      exact hsafe ⟨k, h₀, h₁, Or.inr ⟨l, hl, s, hs, hout⟩⟩

/-- With a hazard in it, the removal of a span inside the body is refused for a hazard. -/
theorem removalFault?_of_hazardous {b : Body} {start count : Nat} (h : start + count ≤ b.length)
    (hz : b.Hazardous start (start + count)) :
    ∃ z, b.removalFault? start count = some (.hazard z) := by
  cases hf : b.removalFault? start count with
  | none => exact absurd hz ((removalFault?_eq_none_iff h).mp hf)
  | some f =>
    obtain ⟨z, rfl⟩ := removalFault?_of_inside (by omega) (by omega) hf
    exact ⟨z, rfl⟩

/-! ## Without a hazard -/

theorem markers_of_not_hazardous {b : Body} {start stop : Nat} (h : ¬ b.Hazardous start stop)
    {k : Nat} {i : Instruction} (h₀ : start ≤ k) (h₁ : k < stop) (hi : b[k]? = some i) :
    i.markers = [] := by
  by_contra hm
  exact h ⟨k, h₀, h₁, Or.inl ⟨i, hi, hm⟩⟩

/-- The target of a branch that stays is not carried by what goes. -/
theorem carrier_outside {b : Body} {start stop : Nat} (h : ¬ b.Hazardous start stop) {s k : Nat}
    {l : Label} (hs : b.BranchesTo s l) (hout : ¬ (start ≤ s ∧ s < stop)) (hk : b.Carries k l) :
    ¬ (start ≤ k ∧ k < stop) := by
  rintro ⟨h₀, h₁⟩
  exact h ⟨k, h₀, h₁, Or.inr ⟨l, hk, s, hs, hout⟩⟩

end Body

/-! ## What a hazard depends on -/

/-- What an instruction has to do with others: the labels and markers on it, and the label that it
branches to. -/
def Instruction.ties (i : Instruction) : List Label × List Marker × Option Label :=
  (i.labels, i.markers, i.branchTarget?)

namespace Body

variable {b c : Body}

theorem marked_iff_ties {k : Nat} :
    b.Marked k ↔ ∃ t, (b.map Instruction.ties)[k]? = some t ∧ t.2.1 ≠ [] := by
  simp [Marked, Instruction.ties]

theorem carries_iff_ties {k : Nat} {l : Label} :
    b.Carries k l ↔ ∃ t, (b.map Instruction.ties)[k]? = some t ∧ l ∈ t.1 := by
  simp [Carries, Instruction.ties]

theorem branchesTo_iff_ties {k : Nat} {l : Label} :
    b.BranchesTo k l ↔ ∃ t, (b.map Instruction.ties)[k]? = some t ∧ t.2.2 = some l := by
  simp [BranchesTo, Instruction.ties]

/-- Bodies whose instructions have the same ties have the same hazards. -/
theorem hazardous_of_ties_eq (h : b.map Instruction.ties = c.map Instruction.ties)
    (start stop : Nat) : b.Hazardous start stop ↔ c.Hazardous start stop := by
  unfold Hazardous
  simp only [marked_iff_ties, carries_iff_ties, branchesTo_iff_ties, h]

theorem map_ties_set {k : Nat} {i j : Instruction} (hi : b[k]? = some i) (h : j.ties = i.ties) :
    (b.set k j).map Instruction.ties = b.map Instruction.ties := by
  obtain ⟨hk, rfl⟩ := List.getElem?_eq_some_iff.mp hi
  have hlength : k < (b.map Instruction.ties).length := by rwa [List.length_map]
  rw [List.map_set, h, ← List.getElem_map Instruction.ties (h := hlength), List.set_getElem_self]

end Body

end Peephole
