-- Edits and labels. An edit that is made leaves every branch that stays with its target:
-- the same instruction, at the index to which the edit has moved it. The markers of
-- exception regions stay too, and those of the new instructions come between them.
import Peephole.Proofs.Body.Splice
import Peephole.Proofs.Cursor.Steps
import Peephole.Proofs.Data.Results

namespace Peephole.Cursor

open Body (shift)

/-! ## What an edit does -/

/-- An edit that is made lies inside the window, and the window inside the body. -/
theorem bounds_of_edit {b b' items : Body} {w : Window} {keep remove : Int}
    (h : edit b w keep remove items = .ok b') :
    w.Within b ∧ 0 ≤ keep ∧ 0 ≤ remove ∧ keep + remove ≤ w.length := by
  unfold edit at h
  obtain ⟨c₁, h₁, h⟩ := ok_of_bind h
  obtain ⟨c₂, h₂, h⟩ := ok_of_bind h
  obtain ⟨c₃, h₃, _⟩ := ok_of_bind h
  rcases locate_cases b w with ⟨hw, he⟩ | ⟨_, f, he, _⟩ <;> rw [he] at h₁ <;> cases h₁
  rcases advance_cases ⟨b, w, w.start, .located, 0, 0⟩ keep with ⟨⟨_, hk₀, hk₁⟩, he⟩ | ⟨_, f, he, _⟩
    <;> rw [he] at h₂ <;> cases h₂
  unfold Window.Within at hw
  simp only at hk₁
  have hin : 0 ≤ w.start + keep ∧ w.stop ≤ b.length := by omega
  rcases remove_cases ⟨b, w, w.start + keep, .advanced, 0, 0⟩ remove (fun _ => hin) with
      ⟨⟨_, hr₀, hr₁⟩, _, he⟩ | ⟨_, _, z, he⟩ | ⟨_, f, he, _⟩
    <;> rw [he] at h₃ <;> cases h₃
  unfold Window.stop at hr₁
  simp only at hr₁
  exact ⟨hw, hk₀, hr₀, by omega⟩

/-- An edit is made inside the body and where there is no hazard. -/
theorem edit_eq_ok {b b' items : Body} {w : Window} {keep remove : Int}
    (h : edit b w keep remove items = .ok b') :
    ∃ a n : Nat, (a : Int) = w.start + keep ∧ (n : Int) = remove ∧ a + n ≤ b.length ∧
      ¬ b.Hazardous a (a + n) ∧ b' = b.splice a n items := by
  obtain ⟨⟨h₀, h₁, h₂⟩, hkeep, hremove, hfit⟩ := bounds_of_edit h
  obtain ⟨k, rfl⟩ := Int.eq_ofNat_of_zero_le hkeep
  obtain ⟨n, rfl⟩ := Int.eq_ofNat_of_zero_le hremove
  have ha : w.start + k = (w.start.toNat + k : Nat) := by omega
  have hin : w.start.toNat + k + n ≤ b.length := by
    unfold Window.stop at h₂
    omega
  rw [edit_of_inside b w k n items h₀ h₁ h₂ hfit, ha] at h
  cases hf : b.removalFault? (w.start.toNat + k : Nat) n with
  | some f =>
    rw [hf] at h
    cases h
  | none =>
    rw [hf] at h
    cases h
    exact ⟨_, n, ha.symm, rfl, hin, (Body.removalFault?_eq_none_iff hin).mp hf, rfl⟩

/-! ## Labels and markers -/

variable {b items : Body} {a n : Nat}

theorem span_without_label (hz : ¬ b.Hazardous a (a + n)) {s : Nat} {l : Label}
    (hs : b.BranchesTo s l) (hout : ¬ (a ≤ s ∧ s < a + n)) :
    ∀ i ∈ (b.drop a).take n, i.labels.contains l = false := by
  intro i hi
  obtain ⟨k, h₀, h₁, hk⟩ := Body.mem_span hi
  rw [← Bool.not_eq_true, List.contains_iff_mem]
  intro hl
  exact Body.carrier_outside hz hs hout ⟨i, hk, hl⟩ ⟨h₀, h₁⟩

theorem carriers_splice (h : a + n ≤ b.length) {l : Label}
    (hspan : ∀ i ∈ (b.drop a).take n, i.labels.contains l = false)
    (hitems : ∀ x ∈ items, l ∉ x.labels) :
    (b.splice a n items).carriers l = (b.carriers l).map (shift a n items.length) := by
  unfold Body.carriers
  apply Body.indicesWhere_splice_shift h hspan
  intro x hx
  rw [← Bool.not_eq_true, List.contains_iff_mem]
  exact hitems x hx

theorem position?_splice (h : a + n ≤ b.length) {l : Label}
    (hspan : ∀ i ∈ (b.drop a).take n, i.labels.contains l = false)
    (hitems : ∀ x ∈ items, l ∉ x.labels) :
    (b.splice a n items).position? l = (b.position? l).map (shift a n items.length) := by
  unfold Body.position?
  rw [carriers_splice h hspan hitems, List.getLast?_map]

/-- The markers after an edit: those that were there, moved, and those of what was put in. -/
theorem mem_markers_splice (h : a + n ≤ b.length) (hz : ¬ b.Hazardous a (a + n)) {m : Nat} :
    m ∈ (b.splice a n items).markersIn 0 (b.splice a n items).length ↔
      (∃ j ∈ b.markersIn 0 b.length, m = shift a n items.length j) ∨
      ∃ k ∈ items.markersIn 0 items.length, m = a + k := by
  simp only [Body.markersIn_all, Body.mem_indicesWhere]
  rw [Body.exists_splice_iff (by omega)]
  constructor
  · rintro (⟨j, _, rfl, hj⟩ | ⟨k, rfl, hk⟩)
    · exact Or.inl ⟨j, hj, rfl⟩
    · exact Or.inr ⟨k, hk, rfl⟩
  · rintro (⟨j, ⟨i, hi, hm⟩, rfl⟩ | ⟨k, hk, rfl⟩)
    · refine Or.inl ⟨j, ?_, rfl, i, hi, hm⟩
      rintro ⟨h₀, h₁⟩
      rw [Body.markers_of_not_hazardous hz h₀ h₁ hi] at hm
      cases hm
    · exact Or.inr ⟨k, rfl, hk⟩

/-! ## The laws -/

/-- After an edit every branch that stays finds its label where it was: no instruction that
goes carried the label, each that carries it is moved by the shift as the branch is, and so is
the index under which the label is listed, unless the new instructions carry the label too. The
markers are the old ones, moved, and those of the new instructions. -/
theorem branches_keep_their_targets {b b' items : Body} {w : Window} {keep remove : Int}
    (h : edit b w keep remove items = .ok b') :
    ∃ a n : Nat, (a : Int) = w.start + keep ∧ (n : Int) = remove ∧
      (∀ i l, b.BranchesTo i l → ¬ (a ≤ i ∧ i < a + n) →
        b'[shift a n items.length i]? = b[i]? ∧
        (∀ j, b.Carries j l →
          ¬ (a ≤ j ∧ j < a + n) ∧ b'[shift a n items.length j]? = b[j]?) ∧
        ((∀ x ∈ items, l ∉ x.labels) →
          ((b'.labelPositions.lookup l).isSome ↔ (b.labelPositions.lookup l).isSome) ∧
          b'.labelPositions.lookup l =
            (b.labelPositions.lookup l).map (shift a n items.length))) ∧
      (∀ j ∈ b.markersIn 0 b.length, ¬ (a ≤ j ∧ j < a + n)) ∧
      (∀ m, m ∈ b'.markersIn 0 b'.length ↔
        (∃ j ∈ b.markersIn 0 b.length, m = shift a n items.length j) ∨
        ∃ k ∈ items.markersIn 0 items.length, m = a + k) ∧
      (b'.markersIn 0 b'.length).Pairwise (· < ·) := by
  obtain ⟨a, n, ha, hn, hin, hz, rfl⟩ := edit_eq_ok h
  refine ⟨a, n, ha, hn, ?_, ?_, fun m => mem_markers_splice hin hz, ?_⟩
  · intro i l hi hout
    refine ⟨Body.getElem?_splice_shift (by omega) hout, ?_, ?_⟩
    · intro j hj
      have hjout := Body.carrier_outside hz hi hout hj
      exact ⟨hjout, Body.getElem?_splice_shift (by omega) hjout⟩
    · intro hitems
      rw [Body.lookup_labelPositions, Body.lookup_labelPositions,
        position?_splice hin (span_without_label hz hi hout) hitems, Option.isSome_map]
      exact ⟨Iff.rfl, rfl⟩
  · intro j hj hspan
    exact hz ⟨j, hspan.1, hspan.2, Or.inl (Body.mem_markersIn.mp hj).1⟩
  · rw [Body.markersIn_all]
    exact Body.indicesWhere_increasing _ _

/-- A branch over a window in which two instructions give way to three: its target is two
instructions behind the window and moves by one. -/
theorem a_branch_over_an_edit_keeps_its_target :
    let nop : Instruction := ⟨.nop, none, [], [], rfl⟩
    let null : Instruction := ⟨.ldnull, none, [], [], rfl⟩
    let pop : Instruction := ⟨.pop, none, [], [], rfl⟩
    let b : Body :=
      [⟨.brS, some (.label ⟨1⟩), [], [], rfl⟩, nop, null, pop, nop, ⟨.ret, none, [⟨1⟩], [], rfl⟩]
    ∃ b', edit b ⟨1, 3⟩ 1 2 [nop, nop, nop] = .ok b' ∧
      b.labelPositions.lookup ⟨1⟩ = some 5 ∧ b'.labelPositions.lookup ⟨1⟩ = some 6 := by
  intro nop null pop b
  have hb : b.labelPositions.lookup ⟨1⟩ = some 5 := by
    rw [Body.lookup_labelPositions]
    rfl
  have hedit : edit b ⟨1, 3⟩ 1 2 [nop, nop, nop] = .ok _ := rfl
  refine ⟨_, hedit, hb, ?_⟩
  obtain ⟨a, n, ha, hn, hbranch, _⟩ := branches_keep_their_targets hedit
  obtain rfl : a = 2 := by
    simp only at ha
    omega
  obtain rfl : n = 2 := by omega
  obtain ⟨_, _, hlabel⟩ := hbranch 0 ⟨1⟩ ⟨_, rfl, rfl⟩ (by omega)
  rw [(hlabel (by decide)).2, hb]
  rfl

end Peephole.Cursor
