-- Spans that may be removed, joined and split. Safety does not grow or shrink with the span: a
-- branch and its target may go together where neither may go alone. Still the verdicts on
-- neighbouring spans fit together, and a removal may be made in one step or in two.
import Peephole.Proofs.Body.Hazards
import Peephole.Proofs.Body.Splice

namespace Peephole.Body

/-- Nothing stands against the removal of a span. -/
def Removable (b : Body) (start count : Int) : Prop := b.removalFault? start count = none

variable {b : Body} {start m n i j k l : Nat}

theorem removable_iff (h : i ≤ j) (hb : j ≤ b.length) :
    b.Removable i (j - i) ↔ ¬ b.Hazardous i j := by
  obtain ⟨n, rfl⟩ := Nat.exists_eq_add_of_le h
  have hcount : ((i + n : Nat) : Int) - i = n := by omega
  unfold Removable
  rw [hcount]
  exact removalFault?_eq_none_iff hb

/-! ## Hazards of neighbouring spans -/

/-- The instruction at an index stands against the removal of a span that it lies in. -/
def HazardAt (b : Body) (start stop k : Nat) : Prop :=
  b.Marked k ∨ ∃ l, b.Carries k l ∧ ∃ s, b.BranchesTo s l ∧ ¬ (start ≤ s ∧ s < stop)

theorem hazardous_iff : b.Hazardous i j ↔ ∃ k, i ≤ k ∧ k < j ∧ b.HazardAt i j k := Iff.rfl

theorem hazardous_of_hazardAt (h : b.HazardAt i j k) (h₀ : i ≤ k) (h₁ : k < j) :
    b.Hazardous i j := hazardous_iff.mpr ⟨k, h₀, h₁, h⟩

/-- Fewer branches lie outside a wider span. -/
theorem HazardAt.narrow {i' j' : Nat} (h : b.HazardAt i j k) (hi : i ≤ i') (hj : j' ≤ j) :
    b.HazardAt i' j' k := by
  rcases h with hm | ⟨label, hk, s, hs, hout⟩
  · exact .inl hm
  · exact .inr ⟨label, hk, s, hs, by omega⟩

/-- A hazard of two spans that meet or overlap is one of either of them. -/
theorem hazardous_join (hij : i ≤ j) (hjk : j ≤ k) (hkl : k ≤ l) (h : b.Hazardous i l) :
    b.Hazardous i k ∨ b.Hazardous j l := by
  obtain ⟨x, h₀, h₁, hx⟩ := hazardous_iff.mp h
  by_cases hxk : x < k
  · exact .inl (hazardous_of_hazardAt (hx.narrow (Nat.le_refl i) hkl) h₀ hxk)
  · exact .inr (hazardous_of_hazardAt (hx.narrow hij (Nat.le_refl l)) (by omega) h₁)

/-- A branch from outside to what two spans share comes from outside one of them. -/
theorem hazardous_meet (hij : i ≤ j) (hkl : k ≤ l) (h : b.Hazardous j k) :
    b.Hazardous i k ∨ b.Hazardous j l := by
  obtain ⟨x, h₀, h₁, hm | ⟨label, hx, s, hs, hout⟩⟩ := h
  · exact .inl ⟨x, by omega, h₁, .inl hm⟩
  · by_cases hsk : k ≤ s
    · exact .inl ⟨x, by omega, h₁, .inr ⟨label, hx, s, hs, by omega⟩⟩
    · exact .inr ⟨x, h₀, by omega, .inr ⟨label, hx, s, hs, by omega⟩⟩

/-! ## Hazards after a removal -/

theorem shift_inside_iff (hk : ¬ (start ≤ k ∧ k < start + m)) :
    (start ≤ shift start m 0 k ∧ shift start m 0 k < start + n) ↔
      (start ≤ k ∧ k < start + m + n) := by
  unfold shift
  split <;> omega

/-- Every index after a removal is that of an instruction that stayed. -/
theorem exists_shift (start m k : Nat) :
    ∃ j, ¬ (start ≤ j ∧ j < start + m) ∧ shift start m 0 j = k := by
  rcases splice_index_cases start m [] k with ⟨j, hj, rfl⟩ | ⟨_, hlt, _⟩
  · exact ⟨j, hj, rfl⟩
  · exact absurd hlt (Nat.not_lt_zero _)

theorem hazardAt_removed_iff (h : start ≤ b.length) (hk : ¬ (start ≤ k ∧ k < start + m)) :
    (b.splice start m []).HazardAt start (start + n) (shift start m 0 k) ↔
      b.HazardAt start (start + m + n) k := by
  have hat : ∀ {j}, ¬ (start ≤ j ∧ j < start + m) →
      (b.splice start m [])[shift start m 0 j]? = b[j]? := getElem?_splice_shift h
  unfold HazardAt Marked Carries BranchesTo
  rw [hat hk]
  refine or_congr Iff.rfl (exists_congr fun label => and_congr Iff.rfl ?_)
  constructor
  · rintro ⟨s, hs, hout⟩
    obtain ⟨s, hsm, rfl⟩ := exists_shift start m s
    rw [hat hsm] at hs
    exact ⟨s, hs, fun hin => hout ((shift_inside_iff hsm).mpr hin)⟩
  · rintro ⟨s, hs, hout⟩
    have hsm : ¬ (start ≤ s ∧ s < start + m) := by omega
    exact ⟨shift start m 0 s, by rw [hat hsm]; exact hs,
      fun hin => hout ((shift_inside_iff hsm).mp hin)⟩

/-- After a safe removal there is a hazard in what follows exactly when there was one in both
together. -/
theorem hazardous_removed_iff (h : start ≤ b.length) (hz : ¬ b.Hazardous start (start + m)) :
    (b.splice start m []).Hazardous start (start + n) ↔ b.Hazardous start (start + m + n) := by
  constructor
  · rintro ⟨x, h₀, h₁, hx⟩
    obtain ⟨k, hk, rfl⟩ := exists_shift start m x
    obtain ⟨hk₀, hk₁⟩ := (shift_inside_iff hk).mp ⟨h₀, h₁⟩
    exact hazardous_of_hazardAt ((hazardAt_removed_iff h hk).mp hx) hk₀ hk₁
  · intro hboth
    obtain ⟨k, h₀, h₁, hx⟩ := hazardous_iff.mp hboth
    have hk : ¬ (start ≤ k ∧ k < start + m) := by
      rintro ⟨_, hkm⟩
      exact hz (hazardous_of_hazardAt (hx.narrow (Nat.le_refl _) (by omega)) h₀ hkm)
    obtain ⟨hk₀, hk₁⟩ := (shift_inside_iff hk).mpr ⟨h₀, h₁⟩
    exact hazardous_of_hazardAt ((hazardAt_removed_iff h hk).mpr hx) hk₀ hk₁

theorem remove_eq_ok (h : i ≤ j) (hb : j ≤ b.length) :
    b.remove i (j - i) = .ok (b.splice i (j - i) []) := by
  have hcount : ((j : Int) - i).toNat = j - i := by omega
  unfold remove
  rw [replace_eq_ok b i (j - i) [] (by omega) (by omega) (by omega), Int.toNat_natCast, hcount]

/-! ## The laws -/

/-- Where two spans that overlap or meet may be removed, so may both together and what they share.
After the removal of one span, the one behind it may be removed exactly when both could have been
removed at once, and the body is then the same. -/
theorem removals_can_be_joined_and_split (hij : i ≤ j) (hjk : j ≤ k) (hkl : k ≤ l)
    (hl : l ≤ b.length) :
    (b.Removable i (k - i) → b.Removable j (l - j) →
      b.Removable i (l - i) ∧ b.Removable j (k - j)) ∧
    (b.Removable i (j - i) → ∃ shorter, b.remove i (j - i) = .ok shorter ∧
      (shorter.Removable i (k - j) ↔ b.Removable i (k - i)) ∧
      shorter.remove i (k - j) = b.remove i (k - i)) := by
  constructor
  · intro hik hjl
    rw [removable_iff (by omega) (by omega)] at hik hjl ⊢
    rw [removable_iff hjk (by omega)]
    constructor
    · intro h
      rcases hazardous_join hij hjk hkl h with h | h
      · exact hik h
      · exact hjl h
    · intro h
      rcases hazardous_meet hij hkl h with h | h
      · exact hik h
      · exact hjl h
  · intro h
    obtain ⟨m, rfl⟩ := Nat.exists_eq_add_of_le hij
    obtain ⟨n, rfl⟩ := Nat.exists_eq_add_of_le hjk
    rw [removable_iff hij (by omega)] at h
    have hm : i + m - i = m := by omega
    have hmn : i + m + n - i = m + n := by omega
    have hn : i + n - i = n := by omega
    have hcount : ((i + m + n : Nat) : Int) - (i + m : Nat) = (i + n : Nat) - i := by omega
    have hlength : (b.splice i m []).length = b.length - m := by
      rw [length_splice (by omega), List.length_nil, Nat.add_zero]
    refine ⟨b.splice i m [], ?_, ?_, ?_⟩
    · rw [remove_eq_ok hij (by omega), hm]
    · rw [hcount, removable_iff (by omega) (by omega), removable_iff (by omega) (by omega),
        hazardous_removed_iff (by omega) h]
    · rw [hcount, remove_eq_ok (by omega) (by omega), remove_eq_ok (by omega) (by omega), hn, hmn,
        splice_after_removal (by omega)]

/-- A branch goes with its target though its target may not go alone, at once or after the
instruction before it. -/
theorem a_branch_is_removed_with_its_target :
    let nop (ls : List Label) : Instruction := ⟨.nop, none, ls, [], rfl⟩
    let b : Body := [nop [], nop [], ⟨.br, some (.label ⟨1⟩), [], [], rfl⟩, nop [⟨1⟩], nop [],
      ⟨.ret, none, [], [], rfl⟩]
    ¬ b.Removable 3 1 ∧ b.Removable 1 4 ∧ b.Removable 2 2 ∧
      ∃ shorter, b.remove 1 1 = .ok shorter ∧ shorter.Removable 1 2 ∧
        shorter.remove 1 2 = b.remove 1 3 := by
  intro nop b
  have hleft : b.Removable 1 3 := rfl
  have hright : b.Removable 2 3 := rfl
  have hfirst : b.Removable 1 1 := rfl
  obtain ⟨hjoin, hsplit⟩ := removals_can_be_joined_and_split (b := b) (i := 1) (j := 2) (k := 4)
    (l := 5) (by decide) (by decide) (by decide) (by decide)
  obtain ⟨hboth, hshared⟩ := hjoin hleft hright
  obtain ⟨shorter, hremove, hiff, hsame⟩ := hsplit hfirst
  exact ⟨nofun, hboth, hshared, shorter, hremove, hiff.mpr hleft, hsame⟩

end Peephole.Body
