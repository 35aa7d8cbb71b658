-- Matches. A pattern fits a body at an offset when its rules hold one by one of the
-- instructions there, and a scan finds the least such offset.
import Peephole.Pattern.Scan

namespace Peephole

/-- The window lies in the body, and every rule holds of its instruction. -/
def Pattern.FitsAt (p : Pattern) (b : Body) (offset : Nat) : Prop :=
  offset + p.length ≤ b.length ∧
    ∀ k r i, p.rules[k]? = some r → b[offset + k]? = some i → r.holds i = true

/-! ## One offset -/

theorem Pattern.matchesAt_iff {p : Pattern} {b : Body} {offset : Nat} :
    p.matchesAt b offset = true ↔ p.FitsAt b offset := by
  unfold matchesAt FitsAt
  split
  · simp only [Bool.false_eq_true, false_iff]
    omega
  · rw [List.all_eq_true, Int.toNat_natCast]
    constructor
    · intro h
      refine ⟨by omega, ?_⟩
      intro k r i hr hi
      have hz : (p.rules.zip (b.drop offset))[k]? = some (r, i) :=
        List.getElem?_zip_eq_some.mpr ⟨hr, by rw [List.getElem?_drop]; exact hi⟩
      exact h (r, i) (List.mem_of_getElem? hz)
    · rintro ⟨_, h⟩ ⟨r, i⟩ hx
      obtain ⟨k, hk⟩ := List.mem_iff_getElem?.mp hx
      obtain ⟨hr, hi⟩ := List.getElem?_zip_eq_some.mp hk
      rw [List.getElem?_drop] at hi
      exact h k r i hr hi

/-! ## Scans -/

namespace Body

variable {b : Body} {p : Pattern} {start : Nat}

theorem firstMatch?_eq_some_iff {k : Nat} :
    b.firstMatch? p start = some k ↔
      start ≤ k ∧ p.FitsAt b k ∧ ∀ o, start ≤ o → o < k → ¬ p.FitsAt b o := by
  unfold firstMatch?
  rw [List.find?_range'_eq_some, List.mem_range'_1]
  simp only [Pattern.matchesAt_iff, Bool.not_eq_true', ← Bool.not_eq_true]
  constructor
  · rintro ⟨hk, ⟨h₀, _⟩, hmin⟩
    exact ⟨h₀, hk, hmin⟩
  · rintro ⟨h₀, hk, hmin⟩
    have := hk.1
    have := p.length_pos
    exact ⟨hk, ⟨h₀, by omega⟩, hmin⟩

theorem firstMatch?_eq_none_iff :
    b.firstMatch? p start = none ↔ ∀ o, start ≤ o → ¬ p.FitsAt b o := by
  unfold firstMatch?
  rw [List.find?_range'_eq_none]
  simp only [Pattern.matchesAt_iff, Bool.not_eq_true', ← Bool.not_eq_true]
  constructor
  · intro h o h₀ ho
    have := ho.1
    have := p.length_pos
    exact h o h₀ (by omega) ho
  · intro h o h₀ _
    exact h o h₀

theorem scanFrom_eq_none_iff : b.scanFrom p start = none ↔ ∀ o, start ≤ o → ¬ p.FitsAt b o := by
  unfold scanFrom
  rw [Option.map_eq_none_iff, firstMatch?_eq_none_iff]

theorem scanFrom_eq_some_iff {w : Window} :
    b.scanFrom p start = some w ↔ ∃ o : Nat, w = ⟨o, p.length⟩ ∧ start ≤ o ∧ p.FitsAt b o ∧
      ∀ m, start ≤ m → m < o → ¬ p.FitsAt b m := by
  unfold scanFrom
  rw [Option.map_eq_some_iff]
  simp only [firstMatch?_eq_some_iff]
  constructor
  · rintro ⟨o, ho, rfl⟩
    exact ⟨o, rfl, ho⟩
  · rintro ⟨o, rfl, ho⟩
    exact ⟨o, ho, rfl⟩

theorem scan_eq_none_iff : b.scan p = none ↔ ∀ o, ¬ p.FitsAt b o := by
  unfold scan scanFrom
  rw [Option.map_eq_none_iff, firstMatch?_eq_none_iff]
  simp only [Nat.zero_le, true_implies]

/-- A scan gives the window at the least offset at which the pattern fits. -/
theorem scan_of_least {w : Nat} (h : p.FitsAt b w) (hmin : ∀ o < w, ¬ p.FitsAt b o) :
    b.scan p = some ⟨w, p.length⟩ := by
  unfold scan scanFrom
  rw [firstMatch?_eq_some_iff.mpr ⟨Nat.zero_le w, h, fun o _ ho => hmin o ho⟩]
  rfl

theorem scanAllFrom_of_none (h : b.scanFrom p start = none) : b.scanAllFrom p start = [] := by
  rw [scanAllFrom]
  split
  · rfl
  · simp_all

theorem scanAllFrom_of_some {w : Window} (h : b.scanFrom p start = some w) :
    b.scanAllFrom p start = w :: b.scanAllFrom p w.stop.toNat := by
  rw [scanAllFrom]
  split
  · simp_all
  · rename_i v hv
    rw [h] at hv
    cases hv
    rfl

theorem least_match_cases (b : Body) (p : Pattern) :
    (∀ o, ¬ p.FitsAt b o) ∨ ∃ w, p.FitsAt b w ∧ ∀ o < w, ¬ p.FitsAt b o := by
  cases h : b.firstMatch? p 0 with
  | none =>
    refine Or.inl fun o => ?_
    exact firstMatch?_eq_none_iff.mp h o (Nat.zero_le o)
  | some w =>
    obtain ⟨_, hw, hmin⟩ := firstMatch?_eq_some_iff.mp h
    exact Or.inr ⟨w, hw, fun o ho => hmin o (Nat.zero_le o) ho⟩

end Body

end Peephole
