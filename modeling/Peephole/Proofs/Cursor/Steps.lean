-- What each step of a cursor does: when it is made and what it leaves, and, when it is
-- not made, whether the step was out of place or the removal was not safe.
import Peephole.Cursor
import Peephole.Proofs.Body.Hazards

namespace Peephole

/-- The window lies inside a body and is not empty. -/
def Window.Within (w : Window) (b : Body) : Prop :=
  0 ≤ w.start ∧ 0 < w.length ∧ w.stop ≤ b.length

/-- A step is refused because it is out of order or leaves the window. -/
def CursorFault.IsMisstep : CursorFault → Prop
  | .removal _ => False
  | .edit _ => False
  | _ => True

namespace Cursor

/-- It is the turn of an advance, and its count stays in the window. -/
def CanAdvance (c : Cursor) (count : Int) : Prop :=
  c.stage = .located ∧ 0 ≤ count ∧ count ≤ c.window.length

/-- It is the turn of a removal, and its count stays in the window. -/
def CanReach (c : Cursor) (count : Int) : Prop :=
  c.stage = .advanced ∧ 0 ≤ count ∧ c.position + count ≤ c.window.stop

/-- The next instructions are not safe to remove. -/
def Endangers (c : Cursor) (count : Int) : Prop :=
  c.body.Hazardous c.position.toNat (c.position + count).toNat

/-! ## One lemma for each step -/

theorem locate_cases (b : Body) (w : Window) :
    (w.Within b ∧ locate b w = .ok ⟨b, w, w.start, .located, 0, 0⟩) ∨
      (¬ w.Within b ∧ ∃ f, locate b w = .error f ∧ f.IsMisstep) := by
  unfold locate Window.Within
  split
  · exact Or.inr ⟨by omega, _, rfl, trivial⟩
  · exact Or.inl ⟨by omega, rfl⟩

theorem advance_cases (c : Cursor) (count : Int) :
    (c.CanAdvance count ∧
        c.advance count =
          .ok { c with position := c.window.start + count, stage := .advanced }) ∨
      (¬ c.CanAdvance count ∧ ∃ f, c.advance count = .error f ∧ f.IsMisstep) := by
  unfold advance CanAdvance
  split
  · rename_i hs
    exact Or.inr ⟨fun h => hs h.1, _, rfl, trivial⟩
  · rename_i hs
    split
    · exact Or.inr ⟨by omega, _, rfl, trivial⟩
    · exact Or.inl ⟨⟨Decidable.not_not.mp hs, by omega, by omega⟩, rfl⟩

/-- A cursor whose window lies in its body removes what is safe to remove. The checks of the
edit itself never stop it. -/
theorem remove_cases (c : Cursor) (count : Int)
    (h : c.stage = .advanced → 0 ≤ c.position ∧ c.window.stop ≤ c.body.length) :
    (c.CanReach count ∧ ¬ c.Endangers count ∧
        c.remove count =
          .ok { c with
            body := c.body.splice c.position.toNat count.toNat []
            stage := .removed
            removed := count }) ∨
      (c.CanReach count ∧ c.Endangers count ∧
        ∃ z, c.remove count = .error (.removal (.hazard z))) ∨
      (¬ c.CanReach count ∧ ∃ f, c.remove count = .error f ∧ f.IsMisstep) := by
  unfold remove CanReach Endangers
  split
  · rename_i hs
    exact Or.inr (Or.inr ⟨fun h => hs h.1, _, rfl, trivial⟩)
  · rename_i hs
    split
    · exact Or.inr (Or.inr ⟨by omega, _, rfl, trivial⟩)
    · have hstage := Decidable.not_not.mp hs
      obtain ⟨h₀, h₁⟩ := h hstage
      obtain ⟨k, hk⟩ := Int.eq_ofNat_of_zero_le h₀
      obtain ⟨n, rfl⟩ := Int.eq_ofNat_of_zero_le (a := count) (by omega)
      have hin : k + n ≤ c.body.length := by omega
      have hreach : c.stage = .advanced ∧ 0 ≤ (n : Int) ∧ c.position + n ≤ c.window.stop :=
        ⟨hstage, by omega, by omega⟩
      have hstop : (c.position + n).toNat = k + n := by omega
      have hstart : c.position.toNat = k := by omega
      rw [hstop, hstart]
      by_cases hz : c.body.Hazardous k (k + n)
      · obtain ⟨z, hf⟩ := Body.removalFault?_of_hazardous hin hz
        refine Or.inr (Or.inl ⟨hreach, hz, z, ?_⟩)
        rw [hk, hf]
      · refine Or.inl ⟨hreach, hz, ?_⟩
        have hr := Body.replace_eq_ok c.body k n [] (by omega) (by omega) (by omega)
        simp only [Int.toNat_natCast] at hr
        rw [hk, (Body.removalFault?_eq_none_iff hin).mpr hz]
        simp only [Body.remove, hr, Int.toNat_natCast]

/-- A cursor that stands in its body puts in what it is given. -/
theorem insert_cases (c : Cursor) (items : Body)
    (h : c.stage = .removed → 0 ≤ c.position ∧ c.position ≤ c.body.length) :
    (c.stage = .removed ∧
        c.insert items =
          .ok { c with
            body := c.body.splice c.position.toNat 0 items
            position := c.position + items.length
            stage := .inserted
            inserted := items.length }) ∨
      (c.stage ≠ .removed ∧ ∃ f, c.insert items = .error f ∧ f.IsMisstep) := by
  unfold insert
  split
  · rename_i hs
    exact Or.inr ⟨hs, _, rfl, trivial⟩
  · rename_i hs
    have hstage := Decidable.not_not.mp hs
    obtain ⟨h₀, h₁⟩ := h hstage
    have hr := Body.replace_eq_ok c.body c.position 0 items h₀ (by omega) (by omega)
    refine Or.inl ⟨hstage, ?_⟩
    simp only [Body.insert, hr, Int.toNat_zero]

end Cursor

end Peephole
