-- What the tables of a body say. A table lists the indices of the instructions that
-- pass a test, in increasing order, and the table of two bodies put together is made
-- of the tables of both.
import Peephole.Body.Labels

namespace Peephole.Body

/-! ## What stands at an index -/

/-- The instruction at an index carries a label. -/
def Carries (b : Body) (k : Nat) (l : Label) : Prop := ∃ i, b[k]? = some i ∧ l ∈ i.labels

/-- The instruction at an index is a branch to a label. -/
def BranchesTo (b : Body) (k : Nat) (l : Label) : Prop :=
  ∃ i, b[k]? = some i ∧ i.branchTarget? = some l

/-- The instruction at an index carries markers. -/
def Marked (b : Body) (k : Nat) : Prop := ∃ i, b[k]? = some i ∧ i.markers ≠ []

/-! ## Tables of indices -/

theorem mem_indicesWhere {b : Body} {p : Instruction → Bool} {k : Nat} :
    k ∈ b.indicesWhere p ↔ ∃ i, b[k]? = some i ∧ p i = true := by
  unfold indicesWhere
  rw [List.mem_filter, List.mem_range]
  constructor
  · rintro ⟨hk, hp⟩
    rw [List.getElem?_eq_getElem hk] at hp
    exact ⟨b[k], List.getElem?_eq_getElem hk, hp⟩
  · rintro ⟨i, hi, hp⟩
    obtain ⟨hk, _⟩ := List.getElem?_eq_some_iff.mp hi
    exact ⟨hk, by rw [hi]; exact hp⟩

theorem indicesWhere_increasing (b : Body) (p : Instruction → Bool) :
    (b.indicesWhere p).Pairwise (· < ·) := List.pairwise_lt_range.filter _

/-- The indices of the second body are counted on from the end of the first. -/
theorem indicesWhere_append (b c : Body) (p : Instruction → Bool) :
    indicesWhere (b ++ c) p = indicesWhere b p ++ (indicesWhere c p).map (b.length + ·) := by
  unfold indicesWhere
  rw [List.length_append, List.range_add, List.filter_append, List.filter_map]
  congr 1
  · apply List.filter_congr
    intro k hk
    rw [List.getElem?_append_left (List.mem_range.mp hk)]
  · congr 1
    apply List.filter_congr
    intro k _
    simp only [Function.comp_apply]
    rw [List.getElem?_append_right (by omega), Nat.add_sub_cancel_left]

theorem indicesWhere_eq_nil_iff {b : Body} {p : Instruction → Bool} :
    b.indicesWhere p = [] ↔ ∀ i ∈ b, p i = false := by
  rw [List.eq_nil_iff_forall_not_mem]
  constructor
  · intro h i hi
    obtain ⟨k, hk⟩ := List.mem_iff_getElem?.mp hi
    have hn : ¬ p i = true := fun hp => h k (mem_indicesWhere.mpr ⟨i, hk, hp⟩)
    simpa using hn
  · intro h k hk
    obtain ⟨i, hi, hp⟩ := mem_indicesWhere.mp hk
    rw [h i (List.mem_of_getElem? hi)] at hp
    cases hp

theorem mem_sources {b : Body} {l : Label} {k : Nat} : k ∈ b.sources l ↔ b.BranchesTo k l := by
  unfold sources BranchesTo
  rw [mem_indicesWhere]
  simp only [beq_iff_eq]

theorem mem_markersIn {b : Body} {start stop : Int} {k : Nat} :
    k ∈ b.markersIn start stop ↔ b.Marked k ∧ start ≤ k ∧ (k : Int) < stop := by
  unfold markersIn Marked
  rw [List.mem_filter, mem_indicesWhere]
  simp

theorem markersIn_all (b : Body) :
    b.markersIn 0 b.length = b.indicesWhere fun i => !i.markers.isEmpty := by
  unfold markersIn
  rw [List.filter_eq_self]
  intro k hk
  obtain ⟨i, hi, _⟩ := mem_indicesWhere.mp hk
  obtain ⟨hlt, _⟩ := List.getElem?_eq_some_iff.mp hi
  simp only [Bool.and_eq_true, decide_eq_true_eq]
  omega

/-! ## Where labels stand -/

theorem mem_labels {b : Body} {l : Label} : l ∈ b.labels ↔ ∃ i ∈ b, l ∈ i.labels := by
  unfold labels sorted
  rw [List.mem_mergeSort, List.mem_eraseDups, List.mem_flatMap]

theorem carriers_eq_nil_iff {b : Body} {l : Label} : b.carriers l = [] ↔ l ∉ b.labels := by
  unfold carriers
  rw [indicesWhere_eq_nil_iff, mem_labels]
  simp

/-- A table made of some keys answers for these keys alone. -/
theorem lookup_filterMap (ls : List Label) (f : Label → Option Nat) (l : Label) :
    (ls.filterMap fun m => (f m).map fun k => (m, k)).lookup l = if l ∈ ls then f l else none := by
  induction ls with
  | nil => rfl
  | cons m ms ih =>
    rw [List.filterMap_cons]
    by_cases hm : l = m
    · subst hm
      cases hf : f l with
      | none => simp only [Option.map_none, ih, hf, ite_self]
      | some k => simp
    · cases hf : f m with
      | none => simp only [Option.map_none, ih, List.mem_cons, hm, false_or]
      | some k =>
        simp only [Option.map_some, List.lookup_cons, beq_eq_false_iff_ne.mpr hm, ih,
          List.mem_cons, hm, false_or]

/-- The table of labels gives for each label the last index that carries it. -/
theorem lookup_labelPositions (b : Body) (l : Label) :
    b.labelPositions.lookup l = b.position? l := by
  unfold labelPositions
  rw [lookup_filterMap]
  split
  · rfl
  · rename_i h
    unfold position?
    rw [carriers_eq_nil_iff.mpr h]
    rfl

end Peephole.Body
