-- What becomes of a patch. Applying a patch never goes wrong, and of three outcomes the
-- body and the patch alone decide which it is.
import Peephole.Patch.Result
import Peephole.Proofs.Body.Hazards
import Peephole.Proofs.Body.Splice
import Peephole.Proofs.Pattern.Match

namespace Peephole

theorem PatchResult.applied_iff {r : PatchResult} : r.applied = true ↔ r.status = .applied := by
  unfold applied
  rw [beq_iff_eq]

namespace Patch

/-! ## Patches that can be made -/

theorem make_eq_ok {name : String} {target : Selector} {pattern : Pattern} {keep remove : Int}
    {insert : Body} {p : Patch} (h : make name target pattern keep remove insert = .ok p) :
    p.name = name ∧ p.target = target ∧ p.pattern = pattern ∧ (p.keep : Int) = keep ∧
      (p.remove : Int) = remove ∧ p.insert = insert := by
  unfold make at h
  split at h
  · cases h
  · split at h
    · cases h
    · split at h
      · cases h
      · cases h
        refine ⟨rfl, rfl, rfl, ?_, ?_, rfl⟩
        · simp only
          omega
        · simp only
          omega

/-! ## The outcomes -/

variable {p : Patch} {b : Body}

theorem outcomeOn_of_attempt {o : Outcome} (h : p.attempt b = .ok o) : p.outcomeOn b = o := by
  rw [attempt_eq] at h
  exact Except.ok.inj h

theorem outcomeOn_of_no_match (h : ∀ o, ¬ p.pattern.FitsAt b o) :
    p.outcomeOn b = .patternNotFound := by
  apply outcomeOn_of_attempt
  unfold attempt
  rw [Body.scan_eq_none_iff.mpr h]

theorem edit_at_match {w : Nat} (h : p.pattern.FitsAt b w) :
    Cursor.edit b ⟨w, p.pattern.length⟩ p.keep p.remove p.insert =
      match b.removalFault? (w + p.keep : Nat) p.remove with
      | some f => .error (.removal f)
      | none => .ok (b.splice (w + p.keep) p.remove p.insert) := by
  have hb := h.1
  have hp := p.pattern.length_pos
  have hf := p.fits
  have he := Cursor.edit_of_inside b ⟨w, p.pattern.length⟩ p.keep p.remove p.insert
    (by simp only; omega) (by simp only; omega) (by simp only [Window.stop]; omega)
    (by simp only; omega)
  simp only [Int.toNat_natCast] at he
  exact he

theorem outcomeOn_of_fault {w : Nat} {z : Hazard} (h : p.pattern.FitsAt b w)
    (hmin : ∀ o < w, ¬ p.pattern.FitsAt b o)
    (hr : b.removalFault? (w + p.keep : Nat) p.remove = some (.hazard z)) :
    p.outcomeOn b = .unsafeRemoval ⟨w, p.pattern.length⟩ z := by
  apply outcomeOn_of_attempt
  unfold attempt
  rw [Body.scan_of_least h hmin]
  simp only
  rw [edit_at_match h, hr]

theorem outcomeOn_of_hazard {w : Nat} (h : p.pattern.FitsAt b w)
    (hmin : ∀ o < w, ¬ p.pattern.FitsAt b o)
    (hz : b.Hazardous (w + p.keep) (w + p.keep + p.remove)) :
    ∃ z, p.outcomeOn b = .unsafeRemoval ⟨w, p.pattern.length⟩ z := by
  have hb := h.1
  have hf := p.fits
  obtain ⟨z, hr⟩ := Body.removalFault?_of_hazardous (by omega) hz
  exact ⟨z, outcomeOn_of_fault h hmin hr⟩

theorem outcomeOn_of_match {w : Nat} (h : p.pattern.FitsAt b w)
    (hmin : ∀ o < w, ¬ p.pattern.FitsAt b o)
    (hz : ¬ b.Hazardous (w + p.keep) (w + p.keep + p.remove)) :
    p.outcomeOn b =
      .applied ⟨w, p.pattern.length⟩ (b.splice (w + p.keep) p.remove p.insert)
        (p.stackWarnings (p.removedFrom b ⟨w, p.pattern.length⟩)) := by
  have hb := h.1
  have hf := p.fits
  apply outcomeOn_of_attempt
  unfold attempt
  rw [Body.scan_of_least h hmin]
  simp only
  rw [edit_at_match h, (Body.removalFault?_eq_none_iff (by omega)).mpr hz]

theorem apply_of_match {w : Nat} (h : p.pattern.FitsAt b w)
    (hmin : ∀ o < w, ¬ p.pattern.FitsAt b o)
    (hz : ¬ b.Hazardous (w + p.keep) (w + p.keep + p.remove)) :
    p.apply b = ⟨p, b, .applied ⟨w, p.pattern.length⟩
      (b.splice (w + p.keep) p.remove p.insert)
      (p.stackWarnings (p.removedFrom b ⟨w, p.pattern.length⟩))⟩ := by
  rw [apply, outcomeOn_of_match h hmin hz]

theorem patched_of_match {w : Nat} (h : p.pattern.FitsAt b w)
    (hmin : ∀ o < w, ¬ p.pattern.FitsAt b o)
    (hz : ¬ b.Hazardous (w + p.keep) (w + p.keep + p.remove)) :
    (p.apply b).patched = b.splice (w + p.keep) p.remove p.insert := by
  rw [apply_of_match h hmin hz]
  rfl

/-- A patch leaves a body as it is or replaces a span of it that is safe to remove. -/
theorem patched_cases (p : Patch) (b : Body) :
    (p.apply b).patched = b ∨
      ∃ a, a + p.remove ≤ b.length ∧ ¬ b.Hazardous a (a + p.remove) ∧
        (p.apply b).patched = b.splice a p.remove p.insert := by
  unfold PatchResult.patched apply
  rcases b.least_match_cases p.pattern with hn | ⟨w, hw, hmin⟩
  · rw [outcomeOn_of_no_match hn]
    exact Or.inl rfl
  · by_cases hz : b.Hazardous (w + p.keep) (w + p.keep + p.remove)
    · obtain ⟨z, ho⟩ := outcomeOn_of_hazard hw hmin hz
      rw [ho]
      exact Or.inl rfl
    · have hb := hw.1
      have hf := p.fits
      rw [outcomeOn_of_match hw hmin hz]
      exact Or.inr ⟨w + p.keep, by omega, hz, rfl⟩

/-- A patch that is tried is applied, or not found, or unsafe. -/
theorem apply_status_ne (p : Patch) (b : Body) :
    (p.apply b).status ≠ .methodMissing ∧ (p.apply b).status ≠ .alreadyApplied := by
  unfold PatchResult.status apply
  rcases b.least_match_cases p.pattern with hn | ⟨w, hw, hmin⟩
  · rw [outcomeOn_of_no_match hn]
    simp [Outcome.status]
  · by_cases hz : b.Hazardous (w + p.keep) (w + p.keep + p.remove)
    · obtain ⟨z, ho⟩ := outcomeOn_of_hazard hw hmin hz
      rw [ho]
      simp [Outcome.status]
    · rw [outcomeOn_of_match hw hmin hz]
      simp [Outcome.status]

/-- A patch that is applied has a first match, and nothing stands against its edit. -/
theorem match_of_applied (h : (p.apply b).applied = true) :
    ∃ w : Nat, p.pattern.FitsAt b w ∧ (∀ o < w, ¬ p.pattern.FitsAt b o) ∧
      ¬ b.Hazardous (w + p.keep) (w + p.keep + p.remove) := by
  unfold PatchResult.applied PatchResult.status apply at h
  rcases b.least_match_cases p.pattern with hn | ⟨w, hw, hmin⟩
  · rw [outcomeOn_of_no_match hn] at h
    cases h
  · by_cases hz : b.Hazardous (w + p.keep) (w + p.keep + p.remove)
    · obtain ⟨z, ho⟩ := outcomeOn_of_hazard hw hmin hz
      rw [ho] at h
      cases h
    · exact ⟨w, hw, hmin, hz⟩

/-- A patch that is applied makes a body longer by what it puts in less what it removes. -/
theorem length_patched_of_applied (h : (p.apply b).applied = true) :
    ((p.apply b).patched.length : Int) = b.length + p.lengthChange := by
  obtain ⟨w, hw, hmin, hz⟩ := match_of_applied h
  have hb := hw.1
  have hf := p.fits
  rw [patched_of_match hw hmin hz, Body.length_splice (by omega)]
  unfold lengthChange
  omega

/-! ## The laws -/

/-- A patch that can be made can be applied to any body, and nothing goes wrong. Without a match
the body stays as it is. Of the first match some instructions are removed and others put in their
place, unless a marker or a label that is needed stands against it; then the body stays, too. -/
theorem a_patch_ends_in_one_of_three_ways {name : String} {target : Selector} {pattern : Pattern}
    {keep remove : Int} {insert : Body} {p : Patch}
    (h : make name target pattern keep remove insert = .ok p) (b : Body) :
    p.attempt b = .ok (p.apply b).outcome ∧
    ((∀ o, ¬ pattern.FitsAt b o) →
      (p.apply b).status = .patternNotFound ∧ (p.apply b).window? = none ∧
        (p.apply b).patched = b) ∧
    ∀ w a e : Nat, pattern.FitsAt b w → (∀ o < w, ¬ pattern.FitsAt b o) →
      (a : Int) = w + keep → (e : Int) = a + remove →
      (p.apply b).window? = some ⟨w, pattern.length⟩ ∧
      (b.Hazardous a e → (p.apply b).status = .unsafeRemoval ∧ (p.apply b).patched = b) ∧
      (¬ b.Hazardous a e →
        (p.apply b).status = .applied ∧
        (p.apply b).patched = b.take a ++ insert ++ b.drop e ∧
        ((p.apply b).patched.length : Int) = b.length + insert.length - remove) := by
  obtain ⟨_, _, rfl, hkeep, hremove, rfl⟩ := make_eq_ok h
  refine ⟨p.attempt_eq b, ?_, ?_⟩
  · intro hn
    simp only [apply, PatchResult.status, PatchResult.window?, PatchResult.patched,
      outcomeOn_of_no_match hn]
    exact ⟨rfl, trivial, trivial⟩
  · intro w a e hw hmin ha he
    obtain rfl : a = w + p.keep := by omega
    obtain rfl : e = w + p.keep + p.remove := by omega
    have hb := hw.1
    have hf := p.fits
    by_cases hz : b.Hazardous (w + p.keep) (w + p.keep + p.remove)
    · obtain ⟨z, ho⟩ := outcomeOn_of_hazard hw hmin hz
      simp only [apply, PatchResult.status, PatchResult.window?, PatchResult.patched, ho]
      exact ⟨trivial, fun _ => ⟨rfl, trivial⟩, fun hn => absurd hz hn⟩
    · simp only [apply, PatchResult.status, PatchResult.window?, PatchResult.patched,
        outcomeOn_of_match hw hmin hz]
      refine ⟨trivial, fun hy => absurd hy hz, fun _ => ⟨rfl, rfl, ?_⟩⟩
      rw [Body.length_splice (by omega)]
      omega

/-- A constant is dropped twice in a body, and a patch against it takes the first time, although
a branch goes to the instruction it keeps. -/
theorem a_patch_takes_the_first_of_two_matches :
    let nop (ls : List Label) : Instruction := ⟨.nop, none, ls, [], rfl⟩
    let null : Instruction := ⟨.ldnull, none, [], [], rfl⟩
    let pop : Instruction := ⟨.pop, none, [], [], rfl⟩
    let jump : Instruction := ⟨.brS, some (.label ⟨1⟩), [], [], rfl⟩
    let pattern : Pattern := ⟨"drop", [.exact .nop none, .exact .ldnull none, .exact .pop none],
      by simp⟩
    let b : Body := [nop [], nop [⟨1⟩], null, pop, jump, nop [], null, pop]
    ∃ p, make "drop" ⟨"T", "m", []⟩ pattern 1 2 [nop []] = .ok p ∧
      (p.apply b).status = .applied ∧
      (p.apply b).patched = [nop [], nop [⟨1⟩], nop [], jump, nop [], null, pop] := by
  intro nop null pop jump pattern b
  have hmake : make "drop" ⟨"T", "m", []⟩ pattern 1 2 [nop []] = .ok _ := rfl
  refine ⟨_, hmake, ?_⟩
  have hfit : pattern.FitsAt b 1 := Pattern.matchesAt_iff.mp rfl
  have hleast : ∀ o < 1, ¬ pattern.FitsAt b o := by
    intro o ho hf
    obtain rfl : o = 0 := by omega
    exact Bool.false_ne_true (Pattern.matchesAt_iff.mpr hf)
  have hnone : b.removalFault? (2 : Nat) (2 : Nat) = none := rfl
  have hsafe : ¬ b.Hazardous 2 4 := (Body.removalFault?_eq_none_iff (by decide)).mp hnone
  obtain ⟨_, _, happlied⟩ := (a_patch_ends_in_one_of_three_ways hmake b).2.2 1 2 4 hfit hleast
    rfl rfl
  obtain ⟨hstatus, hpatched, _⟩ := happlied hsafe
  exact ⟨hstatus, hpatched⟩

end Patch

end Peephole
