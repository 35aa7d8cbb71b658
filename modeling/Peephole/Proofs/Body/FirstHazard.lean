-- Which hazard a refusal names. A marker counts before any label, and of several hazards of one
-- kind the first is named: the first instruction, its first label, and the first branch to it.
import Peephole.Proofs.Body.Hazards

namespace Peephole

/-! ## Searches in increasing lists -/

/-- In an increasing list the first item with an answer is the least one. -/
theorem findSome?_eq_some_iff_least {α : Type} {xs : List Nat} (hxs : xs.Pairwise (· < ·))
    {f : Nat → Option α} {y : α} :
    xs.findSome? f = some y ↔ ∃ k ∈ xs, f k = some y ∧ ∀ j ∈ xs, j < k → f j = none := by
  induction xs with
  | nil => simp
  | cons x xs ih =>
    obtain ⟨hx, hxs⟩ := List.pairwise_cons.mp hxs
    rcases h : f x with _ | z
    · rw [List.findSome?_cons_of_isNone (by simp [h]), ih hxs]
      constructor
      · rintro ⟨k, hk, hy, hleast⟩
        refine ⟨k, List.mem_cons_of_mem x hk, hy, ?_⟩
        intro j hj hjk
        rcases List.mem_cons.mp hj with rfl | hj
        · exact h
        · exact hleast j hj hjk
      · rintro ⟨k, hk, hy, hleast⟩
        rcases List.mem_cons.mp hk with rfl | hk
        · simp [h] at hy
        · exact ⟨k, hk, hy, fun j hj => hleast j (List.mem_cons_of_mem x hj)⟩
    · rw [List.findSome?_cons_of_isSome (by simp [h])]
      constructor
      · intro hy
        refine ⟨x, List.mem_cons_self, hy, ?_⟩
        intro j hj hjx
        rcases List.mem_cons.mp hj with rfl | hj
        · omega
        · have := hx j hj
          omega
      · rintro ⟨k, hk, hy, hleast⟩
        rcases List.mem_cons.mp hk with rfl | hk
        · exact hy
        · have hnone := hleast x List.mem_cons_self (hx k hk)
          simp [h] at hnone

theorem find?_eq_some_iff_least {xs : List Nat} (hxs : xs.Pairwise (· < ·)) {p : Nat → Bool}
    {k : Nat} :
    xs.find? p = some k ↔ k ∈ xs ∧ p k = true ∧ ∀ j ∈ xs, p j = true → k ≤ j := by
  rw [List.find?_eq_findSome?_guard, findSome?_eq_some_iff_least hxs]
  simp only [Option.guard_eq_some_iff, Option.guard_eq_none_iff]
  constructor
  · rintro ⟨_, hk, ⟨rfl, hp⟩, hleast⟩
    refine ⟨hk, hp, ?_⟩
    intro j hj hpj
    by_contra hjk
    simp [hleast j hj (by omega)] at hpj
  · rintro ⟨hk, hp, hleast⟩
    refine ⟨k, hk, ⟨rfl, hp⟩, ?_⟩
    intro j hj hjk
    by_contra hpj
    have := hleast j hj (by simpa using hpj)
    omega

namespace Body

variable {b : Body} {start stop count : Nat}

/-! ## The first hazard -/

/-- A branch outside a span goes to a label. -/
def OuterBranch (b : Body) (start stop : Nat) (l : Label) (s : Nat) : Prop :=
  b.BranchesTo s l ∧ ¬ (start ≤ s ∧ s < stop)

/-- What comes first of all that stands against the removal of a span. -/
inductive FirstHazard (b : Body) (start stop : Nat) : Hazard → Prop
  /-- The first instruction with markers, and its markers. -/
  | marked {k : Nat} {i : Instruction} (inside : start ≤ k ∧ k < stop) (at_index : b[k]? = some i)
      (marks : i.markers ≠ []) (first : ∀ j, start ≤ j → j < k → ¬ b.Marked j) :
      FirstHazard b start stop (.marked k i.markers)
  /-- Where there are no markers, the first instruction with a label that a branch outside goes
  to, the first such label, and the first such branch. -/
  | targeted {k s : Nat} {i : Instruction} {l : Label} {before after : List Label}
      (unmarked : ∀ j, start ≤ j → j < stop → ¬ b.Marked j)
      (inside : start ≤ k ∧ k < stop) (at_index : b[k]? = some i)
      (first : ∀ j, start ≤ j → j < k → ∀ m, b.Carries j m → ∀ t, ¬ b.OuterBranch start stop m t)
      (labels : i.labels = before ++ l :: after)
      (first_label : ∀ m ∈ before, ∀ t, ¬ b.OuterBranch start stop m t)
      (outer : b.OuterBranch start stop l s)
      (first_source : ∀ t, b.OuterBranch start stop l t → s ≤ t) :
      FirstHazard b start stop (.targeted k l s)

theorem not_outerBranch_iff {l : Label} :
    (∀ s, ¬ b.OuterBranch start stop l s) ↔ ∀ s, b.BranchesTo s l → start ≤ s ∧ s < stop := by
  simp only [OuterBranch, not_and_not_right]

/-! ## What the search finds -/

theorem first_marker {k : Nat} {ks : List Nat} (h : b.markersIn start stop = k :: ks) :
    b.Marked k ∧ (start ≤ k ∧ k < stop) ∧ ∀ j, start ≤ j → j < k → ¬ b.Marked j := by
  have hk : k ∈ b.markersIn start stop := by simp [h]
  obtain ⟨hm, h₀, h₁⟩ := mem_markersIn.mp hk
  have hincreasing : (b.markersIn start stop).Pairwise (· < ·) :=
    (indicesWhere_increasing b _).filter _
  rw [h, List.pairwise_cons] at hincreasing
  refine ⟨hm, by omega, ?_⟩
  intro j hj hjk hmj
  have hmem : j ∈ b.markersIn start stop := mem_markersIn.mpr ⟨hmj, by omega, by omega⟩
  rw [h] at hmem
  rcases List.mem_cons.mp hmem with rfl | hmem
  · omega
  · have := hincreasing.1 j hmem
    omega

theorem outerSource?_eq_some_iff {l : Label} {s : Nat} :
    b.outerSource? start stop l = some s ↔
      b.OuterBranch start stop l s ∧ ∀ t, b.OuterBranch start stop l t → s ≤ t := by
  have hsources : (b.sources l).Pairwise (· < ·) := indicesWhere_increasing b _
  unfold outerSource? OuterBranch
  rw [find?_eq_some_iff_least hsources]
  simp only [mem_sources, Bool.not_eq_true', ← Bool.not_eq_true, Bool.and_eq_true,
    decide_eq_true_eq, Int.ofNat_le, Int.ofNat_lt, and_assoc, and_imp]

theorem targetFault?_eq_some_iff {k : Nat} (h : k < b.length) {f : RemovalFault} :
    b.targetFault? start stop k = some f ↔
      ∃ before l after s, b[k].labels = before ++ l :: after ∧
        (∀ m ∈ before, ∀ t, ¬ b.OuterBranch start stop m t) ∧ b.OuterBranch start stop l s ∧
        (∀ t, b.OuterBranch start stop l t → s ≤ t) ∧ f = .hazard (.targeted k l s) := by
  have hk : itemAt? b k = some b[k] := by
    rw [itemAt?, if_pos (by omega), Int.toNat_natCast, List.getElem?_eq_getElem h]
  unfold targetFault?
  rw [hk]
  simp only [List.findSome?_eq_some_iff, Option.map_eq_some_iff, Option.map_eq_none_iff,
    outerSource?_eq_some_iff, outerSource?_eq_none_iff, not_outerBranch_iff]
  constructor
  · rintro ⟨before, l, after, hlabels, ⟨s, ⟨hs, hleast⟩, rfl⟩, hbefore⟩
    exact ⟨before, l, after, s, hlabels, hbefore, hs, hleast, rfl⟩
  · rintro ⟨before, l, after, s, hlabels, hbefore, hs, hleast, rfl⟩
    exact ⟨before, l, after, hlabels, ⟨s, ⟨hs, hleast⟩, rfl⟩, hbefore⟩

theorem spanIndices_eq (h : start + count ≤ b.length) :
    b.spanIndices start count = (List.range' start count).map fun k : Nat => (k : Int) := by
  have hcount : min count (2 * b.length + 1) = count := by omega
  unfold spanIndices
  rw [Int.toNat_natCast, hcount, List.range'_eq_map_range, List.map_map]
  simp [Function.comp_def]

/-- A removal inside the body is refused for the first hazard and for nothing else. -/
theorem removalFault?_eq_some_iff (h : start + count ≤ b.length) {f : RemovalFault} :
    b.removalFault? start count = some f ↔
      ∃ z, f = .hazard z ∧ b.FirstHazard start (start + count) z := by
  unfold removalFault?
  split
  · rename_i k ks hm
    have hmarkers : b.markersIn start (start + count : Nat) = k :: ks := by simpa using hm
    obtain ⟨⟨i, hi, hne⟩, hin, hfirst⟩ := first_marker hmarkers
    rw [hi, Option.map_some, Option.getD_some, Option.some.injEq]
    constructor
    · rintro rfl
      exact ⟨_, rfl, .marked hin hi hne hfirst⟩
    · rintro ⟨z, rfl, hz⟩
      cases hz with
      | @marked k' i' hin' hi' hne' hfirst' =>
        -- Neither of the two comes before the other.
        have h₀ : ¬ k' < k := fun hlt => hfirst k' hin'.1 hlt ⟨i', hi', hne'⟩
        have h₁ : ¬ k < k' := fun hlt => hfirst' k hin.1 hlt ⟨i, hi, hne⟩
        obtain rfl : k' = k := by omega
        rw [hi] at hi'
        cases hi'
        rfl
      | targeted hunmarked => exact absurd ⟨i, hi, hne⟩ (hunmarked k hin.1 hin.2)
  · rename_i hm
    have hclean : ∀ j, start ≤ j → j < start + count → ¬ b.Marked j := by
      intro j h₀ h₁ hj
      have : j ∈ b.markersIn start (start + count) := mem_markersIn.mpr ⟨hj, by omega, by omega⟩
      simp [hm] at this
    rw [spanIndices_eq h, List.findSome?_map,
      findSome?_eq_some_iff_least (List.pairwise_lt_range' _)]
    simp only [List.mem_range'_1, Function.comp_apply]
    constructor
    · rintro ⟨k, hin, hk, hfirst⟩
      rw [← Int.natCast_add, targetFault?_eq_some_iff (by omega)] at hk
      obtain ⟨before, l, after, s, hlabels, hbefore, hs, hleast, rfl⟩ := hk
      refine ⟨_, rfl, .targeted hclean hin (List.getElem?_eq_getElem (by omega)) ?_ hlabels hbefore
        hs hleast⟩
      intro j hj hjk m hm
      have hnone := hfirst j (by omega) hjk
      rw [← Int.natCast_add, targetFault?_eq_none_iff _ _ (by omega)] at hnone
      exact not_outerBranch_iff.mpr (hnone m hm)
    · rintro ⟨z, rfl, hz⟩
      cases hz with
      | marked hin hi hne => exact absurd ⟨_, hi, hne⟩ (hclean _ hin.1 hin.2)
      | @targeted k s i l before after _ hin hi hfirst hlabels hbefore hs hleast =>
        obtain ⟨hk, rfl⟩ := List.getElem?_eq_some_iff.mp hi
        refine ⟨k, hin, ?_, ?_⟩
        · rw [← Int.natCast_add, targetFault?_eq_some_iff hk]
          exact ⟨before, l, after, s, hlabels, hbefore, hs, hleast, rfl⟩
        · intro j hj hjk
          rw [← Int.natCast_add, targetFault?_eq_none_iff _ _ (by omega)]
          exact fun m hm => not_outerBranch_iff.mp (hfirst j hj.1 hjk m hm)

/-! ## The laws -/

/-- The removal of a span inside the body is refused exactly when a marker or a label that is needed
outside stands against it, and then for the first of all that stands against it. -/
theorem a_refusal_names_the_first_hazard (h : start + count ≤ b.length) :
    ((∃ f, b.removalFault? start count = some f) ↔ b.Hazardous start (start + count)) ∧
    ∀ f, b.removalFault? start count = some f ↔
      ∃ z, f = .hazard z ∧ b.FirstHazard start (start + count) z := by
  refine ⟨?_, fun f => removalFault?_eq_some_iff h⟩
  rw [← Option.isSome_iff_exists, Option.isSome_iff_ne_none, ne_eq, removalFault?_eq_none_iff h,
    not_not]

/-- An instruction has three labels. A branch in the span goes to the first, two branches outside to
the second, and one to the third. A longer span reaches up to a marker. -/
theorem a_span_with_many_hazards :
    let jump (n : Nat) : Instruction := ⟨.br, some (.label ⟨n⟩), [], [], rfl⟩
    let nop (ls : List Label) (ms : List Marker) : Instruction := ⟨.nop, none, ls, ms, rfl⟩
    let b : Body := [jump 2, nop [⟨1⟩, ⟨2⟩, ⟨3⟩] [], jump 1, nop [⟨3⟩] [], jump 3, jump 2,
      nop [] [⟨.regionEnd, .null⟩]]
    b.Hazardous 1 4 ∧ b.FirstHazard 1 4 (.targeted 1 ⟨2⟩ 0) ∧
      b.FirstHazard 1 7 (.marked 6 [⟨.regionEnd, .null⟩]) := by
  intro jump nop b
  have hshort : b.removalFault? (1 : Nat) (3 : Nat) = some (.hazard (.targeted 1 ⟨2⟩ 0)) := rfl
  have hlong : b.removalFault? (1 : Nat) (6 : Nat) =
      some (.hazard (.marked 6 [⟨.regionEnd, .null⟩])) := rfl
  have hinside : 1 + 3 ≤ b.length := by decide
  have hinside' : 1 + 6 ≤ b.length := by decide
  obtain ⟨hrefused, hnamed⟩ := a_refusal_names_the_first_hazard hinside
  obtain ⟨-, hnamed'⟩ := a_refusal_names_the_first_hazard hinside'
  obtain ⟨z, hz, hfirst⟩ := (hnamed _).mp hshort
  obtain ⟨z', hz', hfirst'⟩ := (hnamed' _).mp hlong
  cases hz
  cases hz'
  exact ⟨hrefused.mp ⟨_, hshort⟩, hfirst, hfirst'⟩

end Body

end Peephole
