-- Patches on bodies that differ in their spelling alone. They are found at the same places and end
-- in the same way; and when the rules ask for classes of opcodes alone, a body may be spelled with
-- any opcodes of the same classes.
import Peephole.Proofs.Body.Spelling
import Peephole.Proofs.Patch.Outcomes

namespace Peephole

variable {R : Opcode → Opcode → Prop} {b d : Body}

/-! ## Rules -/

/-- A rule that holds of both or of neither of two instructions that agree. -/
def Rule.Respects (R : Opcode → Opcode → Prop) (r : Rule) : Prop :=
  ∀ i j, i.Alike R j → r.holds i = r.holds j

theorem Rule.respects_eq (r : Rule) : r.Respects Eq := by
  intro i j h
  cases r <;> simp [holds, Instruction.encoding, h.opcode, h.operand]

theorem Rule.anyOf_respects_sameClass (classes : ClassSet) (condition : Option Condition) :
    (Rule.anyOf classes condition).Respects Opcode.SameClass := by
  intro i j h
  have hclass : i.encoding = j.encoding := h.opcode
  simp only [holds, hclass, h.operand]

/-! ## Matches -/

theorem Body.Alike.all_zip {rules : List Rule} (h : b.Alike R d)
    (hr : ∀ r ∈ rules, r.Respects R) :
    ((rules.zip b).all fun (r, i) => r.holds i) = (rules.zip d).all fun (r, i) => r.holds i := by
  induction h generalizing rules with
  | nil => rfl
  | cons hi _ ih =>
    cases rules with
    | nil => rfl
    | cons r rules =>
      rw [List.forall_mem_cons] at hr
      simp only [List.zip_cons_cons, List.all_cons, hr.1 _ _ hi, ih hr.2]

/-- A pattern that fits two bodies at the same offsets, so that all searches find the same. -/
structure Pattern.FoundAlike (p : Pattern) (b d : Body) : Prop where
  matchesAt : ∀ offset : Int, p.matchesAt b offset = p.matchesAt d offset
  scanAt : ∀ start : Int, b.scanAt p start = d.scanAt p start
  scanAll : b.scanAll p = d.scanAll p

section

variable {p : Pattern}

theorem Pattern.matchesAt_eq (hp : ∀ r ∈ p.rules, r.Respects R) (h : b.Alike R d)
    (offset : Int) : p.matchesAt b offset = p.matchesAt d offset := by
  unfold matchesAt
  rw [h.length, (h.drop offset.toNat).all_zip hp]

theorem Body.scanFrom_eq (hp : ∀ r ∈ p.rules, r.Respects R) (h : b.Alike R d) (start : Nat) :
    b.scanFrom p start = d.scanFrom p start := by
  unfold scanFrom firstMatch?
  simp only [h.length, Pattern.matchesAt_eq hp h]

theorem Body.scanAllFrom_eq (hp : ∀ r ∈ p.rules, r.Respects R) (h : b.Alike R d) (start : Nat) :
    b.scanAllFrom p start = d.scanAllFrom p start := by
  fun_induction b.scanAllFrom p start with
  | case1 start hscan =>
    rw [scanFrom_eq hp h] at hscan
    rw [scanAllFrom_of_none hscan]
  | case2 start w hscan ih =>
    rw [scanFrom_eq hp h] at hscan
    rw [scanAllFrom_of_some hscan, ih]

theorem Pattern.foundAlike (hp : ∀ r ∈ p.rules, r.Respects R) (h : b.Alike R d) :
    p.FoundAlike b d where
  matchesAt := matchesAt_eq hp h
  scanAt start := by
    unfold Body.scanAt
    rw [Body.scanFrom_eq hp h]
  scanAll := Body.scanAllFrom_eq hp h 0

end

/-! ## Patches -/

namespace Patch

/-- A patch that ends in the same way on two bodies, and leaves bodies that agree. -/
structure ActsAlike (R : Opcode → Opcode → Prop) (p : Patch) (b d : Body) : Prop where
  status : (p.apply b).status = (p.apply d).status
  window : (p.apply b).window? = (p.apply d).window?
  message : (p.apply b).message = (p.apply d).message
  patched : Body.Alike R (p.apply b).patched (p.apply d).patched

variable {p : Patch}

theorem fitsAt_iff (hp : ∀ r ∈ p.pattern.rules, r.Respects R) (h : b.Alike R d) (o : Nat) :
    p.pattern.FitsAt b o ↔ p.pattern.FitsAt d o := by
  rw [← Pattern.matchesAt_iff, Pattern.matchesAt_eq hp h, Pattern.matchesAt_iff]

/-- The outcomes on two bodies that agree, side by side. -/
theorem outcomes_cases (hp : ∀ r ∈ p.pattern.rules, r.Respects R) (h : b.Alike R d) :
    (p.outcomeOn b = .patternNotFound ∧ p.outcomeOn d = .patternNotFound) ∨
    (∃ w z, p.outcomeOn b = .unsafeRemoval w z ∧ p.outcomeOn d = .unsafeRemoval w z) ∨
    ∃ w k,
      p.outcomeOn b = .applied w (b.splice k p.remove p.insert)
        (p.stackWarnings (p.removedFrom b w)) ∧
      p.outcomeOn d = .applied w (d.splice k p.remove p.insert)
        (p.stackWarnings (p.removedFrom d w)) := by
  have hfits := fitsAt_iff hp h
  rcases b.least_match_cases p.pattern with hn | ⟨w, hw, hmin⟩
  · exact .inl ⟨outcomeOn_of_no_match hn,
      outcomeOn_of_no_match fun o ho => hn o ((hfits o).mpr ho)⟩
  · -- The first match in one body is the first in the other, and the same fault or none stands
    -- against the removal.
    have hw' := (hfits w).mp hw
    have hmin' : ∀ o < w, ¬ p.pattern.FitsAt d o := fun o ho hf => hmin o ho ((hfits o).mpr hf)
    have hfault := h.removalFault? (w + p.keep : Nat) p.remove
    have hinside := hw.1
    have hinside' := hw'.1
    have hcounts := p.fits
    cases hr : b.removalFault? (w + p.keep : Nat) p.remove with
    | none =>
      have hsafe := (Body.removalFault?_eq_none_iff (by omega)).mp hr
      have hsafe' := (Body.removalFault?_eq_none_iff (by omega)).mp (hfault.symm.trans hr)
      exact .inr (.inr ⟨_, _, outcomeOn_of_match hw hmin hsafe,
        outcomeOn_of_match hw' hmin' hsafe'⟩)
    | some f =>
      obtain ⟨z, rfl⟩ := Body.removalFault?_of_inside (by omega) (by omega) hr
      exact .inr (.inl ⟨_, z, outcomeOn_of_fault hw hmin hr,
        outcomeOn_of_fault hw' hmin' (hfault.symm.trans hr)⟩)

theorem actsAlike (hR : ∀ op, R op op) (hp : ∀ r ∈ p.pattern.rules, r.Respects R)
    (h : b.Alike R d) : p.ActsAlike R b d := by
  rcases outcomes_cases hp h with ⟨hb, hd⟩ | ⟨w, z, hb, hd⟩ | ⟨w, k, hb, hd⟩
  all_goals
    constructor <;>
      simp only [apply, PatchResult.status, PatchResult.window?, PatchResult.message,
        PatchResult.patched, Outcome.status, hb, hd, h.length]
  · exact h
  · exact h
  · exact h.splice hR k p.remove p.insert

theorem warnings_eq (h : b.Alike Eq d) : (p.apply b).warnings = (p.apply d).warnings := by
  have hp : ∀ r ∈ p.pattern.rules, r.Respects Eq := fun r _ => r.respects_eq
  rcases outcomes_cases hp h with ⟨hb, hd⟩ | ⟨w, z, hb, hd⟩ | ⟨w, k, hb, hd⟩
  · simp only [apply, PatchResult.warnings, hb, hd]
  · simp only [apply, PatchResult.warnings, hb, hd]
  · have hremoved := ((h.drop (w.start.toNat + p.keep)).take p.remove).stackDelta?
    simp only [apply, PatchResult.warnings, hb, hd, stackWarnings, removedFrom, hremoved]

/-! ## The laws -/

/-- When two bodies agree in all but what short forms spell out, every pattern is found at the same
places in both, and every patch ends in the same way on both, with the same warnings, and leaves
bodies that agree. When the rules of a pattern ask for classes of opcodes alone, the same holds of
bodies whose opcodes agree in their classes, but for the warnings. -/
theorem the_spelling_of_a_body_does_not_matter :
    (∀ b d : Body, b.Alike Eq d →
      (∀ p : Pattern, p.FoundAlike b d) ∧
      ∀ p : Patch, p.ActsAlike Eq b d ∧ (p.apply b).warnings = (p.apply d).warnings) ∧
    ∀ b d : Body, b.Alike Opcode.SameClass d →
      (∀ p : Pattern, (∀ r ∈ p.rules, ∃ classes condition, r = .anyOf classes condition) →
        p.FoundAlike b d) ∧
      ∀ p : Patch, (∀ r ∈ p.pattern.rules, ∃ classes condition, r = .anyOf classes condition) →
        p.ActsAlike Opcode.SameClass b d := by
  have hclass : ∀ rules : List Rule,
      (∀ r ∈ rules, ∃ classes condition, r = .anyOf classes condition) →
        ∀ r ∈ rules, r.Respects Opcode.SameClass := by
    intro rules h r hr
    obtain ⟨classes, condition, rfl⟩ := h r hr
    exact Rule.anyOf_respects_sameClass classes condition
  constructor
  · intro b d h
    refine ⟨fun p => Pattern.foundAlike (fun r _ => r.respects_eq) h, fun p => ⟨?_, warnings_eq h⟩⟩
    exact actsAlike (fun _ => rfl) (fun r _ => r.respects_eq) h
  · intro b d h
    refine ⟨fun p hp => Pattern.foundAlike (hclass p.rules hp) h, fun p hp => ?_⟩
    exact actsAlike (fun _ => rfl) (hclass p.pattern.rules hp) h

/-- A constant is stored in three spellings. Rules for classes find all of them, and rules for
opcodes the first two, which have the same opcodes. -/
theorem a_constant_stored_in_three_spellings :
    let two : Operand := .constant ⟨2, by decide⟩
    let one : Operand := .slot ⟨1, by decide⟩
    let b : Body := [⟨.ldcI42, none, [], [], rfl⟩, ⟨.stloc1, none, [], [], rfl⟩]
    let c : Body := [⟨.ldcI42, some two, [], [], rfl⟩, ⟨.stloc1, some one, [], [], rfl⟩]
    let d : Body := [⟨.ldcI4S, some two, [], [], rfl⟩, ⟨.stloc, some one, [], [], rfl⟩]
    let p : Patch := ⟨"p", ⟨"T", "m", []⟩, ⟨"q", [.anyConstant (some 2), .storeLocal 1], by simp⟩,
      1, 1, [⟨.pop, none, [], [], rfl⟩], by decide, by decide⟩
    let q : Patch := ⟨"q", ⟨"T", "m", []⟩,
      ⟨"q", [.exact .ldcI42 none, .exact .stloc1 none], by simp⟩, 1, 1, [], by decide, by decide⟩
    (p.apply b).status = .applied ∧ (p.apply c).status = .applied ∧
      (p.apply d).status = .applied ∧ (q.apply b).status = .applied ∧
      (q.apply c).status = .applied ∧ (q.apply d).status = .patternNotFound := by
  intro two one b c d p q
  obtain ⟨hsame, hclass⟩ := the_spelling_of_a_body_does_not_matter
  have hbc : b.Alike Eq c := .cons ⟨rfl, rfl, rfl, rfl⟩ (.cons ⟨rfl, rfl, rfl, rfl⟩ .nil)
  have hbd : b.Alike Opcode.SameClass d :=
    .cons ⟨rfl, rfl, rfl, rfl⟩ (.cons ⟨rfl, rfl, rfl, rfl⟩ .nil)
  have hrules : ∀ r ∈ p.pattern.rules, ∃ classes condition, r = .anyOf classes condition := by
    intro r hr
    simp only [p, List.mem_cons, List.not_mem_nil, or_false] at hr
    rcases hr with rfl | rfl
    · exact ⟨_, _, rfl⟩
    · exact ⟨_, _, rfl⟩
  have hp : (p.apply b).status = .applied := rfl
  have hq : (q.apply b).status = .applied := rfl
  refine ⟨hp, ?_, ?_, hq, ?_, rfl⟩
  · rw [← ((hsame b c hbc).2 p).1.status, hp]
  · rw [← ((hclass b d hbd).2 p hrules).status, hp]
  · rw [← ((hsame b c hbc).2 q).1.status, hq]

end Patch

end Peephole
