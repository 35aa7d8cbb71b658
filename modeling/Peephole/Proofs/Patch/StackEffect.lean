-- The effect on the stack. It can be told of every instruction and so of every body, and it adds
-- up. A patch that is applied changes it by what it puts in less what it removes, and says so.
import Mathlib.Algebra.BigOperators.Group.List.Basic
import Peephole.Proofs.Body.Spelling
import Peephole.Proofs.Instruction.Shortest
import Peephole.Proofs.Patch.Outcomes
import Peephole.Proofs.Pattern.ExactRules

namespace Peephole

/-! ## Instructions -/

/-- The effect of an opcode depends on the operand only where the operand is a method. -/
theorem Opcode.delta_eq_none_iff (op : Opcode) : op.info.delta = none ↔ op.shape = .method := by
  revert op
  decide

namespace Instruction

theorem stackDelta?_isSome (i : Instruction) : i.stackDelta?.isSome = true := by
  unfold stackDelta?
  cases hdelta : i.opcode.info.delta with
  | some d => rfl
  | none =>
    obtain ⟨m, hm⟩ := operand_of_method ((Opcode.delta_eq_none_iff i.opcode).mp hdelta)
    rw [hm]
    rfl

/-- The net effect on the stack. -/
def effect (i : Instruction) : Int := i.stackDelta?.get i.stackDelta?_isSome

theorem stackDelta?_eq (i : Instruction) : i.stackDelta? = some i.effect :=
  (Option.some_get i.stackDelta?_isSome).symm

theorem effect_of_delta {i : Instruction} {d : Int} (h : i.opcode.info.delta = some d) :
    i.effect = d := by
  have heffect := i.stackDelta?_eq
  rw [stackDelta?, h, Option.some.injEq] at heffect
  exact heffect.symm

theorem effect_of_method {i : Instruction} {m : MethodRef} (h : i.opcode.info.delta = none)
    (hm : i.operand = some (.method m)) : i.effect = callDelta i.opcode m := by
  have heffect := i.stackDelta?_eq
  rw [stackDelta?, h, hm, Option.some.injEq] at heffect
  exact heffect.symm

end Instruction

/-! ## Bodies -/

namespace Body

/-- The net effect of all instructions on the stack. -/
def net (b : Body) : Int := (b.map Instruction.effect).sum

@[simp] theorem net_cons (i : Instruction) (b : Body) : net (i :: b) = i.effect + net b := by
  simp [net]

@[simp] theorem net_append (b c : Body) : net (b ++ c) = net b + net c := by
  simp [net]

theorem stackDelta?_eq (b : Body) : b.stackDelta? = some b.net := by
  induction b with
  | nil => rfl
  | cons i b ih => rw [stackDelta?, i.stackDelta?_eq, ih, net_cons]

end Body

/-! ## Rules that fix the effect -/

namespace Rule

/-- All instructions that pass have one effect on the stack. -/
def HasEffect (r : Rule) (d : Int) : Prop := ∀ i : Instruction, r.holds i = true → i.effect = d

theorem exact_hasEffect {op : Opcode} {operand : Option Operand} {d : Int}
    (h : op.info.delta = some d) : (exact op operand).HasEffect d := by
  intro i hi
  obtain ⟨rfl, _⟩ := exact_holds_iff.mp hi
  exact Instruction.effect_of_delta h

theorem exact_method_hasEffect {op : Opcode} {m : MethodRef} (h : op.info.delta = none) :
    (exact op (some (.method m))).HasEffect (Instruction.callDelta op m) := by
  intro i hi
  obtain ⟨rfl, hoperand⟩ := exact_holds_iff.mp hi
  rw [Option.some_or, Instruction.logicalOperand?_eq_some_iff (by simp) (by simp)] at hoperand
  exact Instruction.effect_of_method h hoperand

theorem anyOf_singleton_hasEffect {c : EncodingClass} {p : Predicate} {d : Int}
    (h : ∀ op : Opcode, op.encoding = c → op.info.delta = some d) :
    (anyOf (.singleton c) (some (.predicate p))).HasEffect d := by
  intro i hi
  exact Instruction.effect_of_delta (h i.opcode (anyOf_singleton_holds_iff.mp hi).1)

end Rule

/-- Part of a match passes that part of the rules. -/
theorem Pattern.FitsAt.part {p : Pattern} {b : Body} {o m n : Nat} (h : p.FitsAt b o)
    (hin : m + n ≤ p.length) :
    List.Forall₂ (fun r i => Rule.holds i r = true) ((p.rules.drop m).take n)
      ((b.drop (o + m)).take n) := by
  obtain ⟨hinside, hholds⟩ := h
  unfold length at hinside hin
  rw [List.forall₂_iff_zip]
  refine ⟨?_, ?_⟩
  · simp only [List.length_take, List.length_drop]
    omega
  · intro r i hmem
    obtain ⟨k, hk⟩ := List.mem_iff_getElem?.mp hmem
    obtain ⟨hr, hi⟩ := List.getElem?_zip_eq_some.mp hk
    rw [List.getElem?_take, Option.ite_none_right_eq_some, List.getElem?_drop] at hr hi
    exact hholds (m + k) r i hr.2 (by rw [← Nat.add_assoc]; exact hi.2)

theorem Body.net_of_effects {rs : List Rule} {ds : List Int} {b : Body}
    (hr : List.Forall₂ Rule.HasEffect rs ds)
    (hb : List.Forall₂ (fun r i => Rule.holds i r = true) rs b) : b.net = ds.sum := by
  induction hr generalizing b with
  | nil =>
    cases hb
    rfl
  | cons hd _ ih =>
    cases hb with
    | cons hi hrest => rw [net_cons, List.sum_cons, hd _ hi, ih hrest]

/-! ## Patches -/

namespace Patch

variable {p : Patch} {b removed : Body}

theorem stackWarnings_of_eq (h : removed.net = Body.net p.insert) :
    p.stackWarnings removed = [] := by
  unfold stackWarnings
  rw [removed.stackDelta?_eq, Body.stackDelta?_eq p.insert]
  exact if_pos h

theorem stackWarnings_of_ne (h : removed.net ≠ Body.net p.insert) :
    p.stackWarnings removed = [⟨removed.net, Body.net p.insert⟩] := by
  unfold stackWarnings
  rw [removed.stackDelta?_eq, Body.stackDelta?_eq p.insert]
  exact if_neg h

theorem warnings_of_not_applied {r : PatchResult} (h : r.status ≠ .applied) :
    r.warnings = [] := by
  obtain ⟨p, b, o⟩ := r
  cases o with
  | applied w patched warnings => exact absurd rfl h
  | _ => rfl

/-- A patch that is applied cuts a body in three and puts its own instructions in the place of the
middle part. -/
theorem parts_of_applied (h : (p.apply b).status = .applied) :
    ∃ w kept removed rest, (p.apply b).window? = some w ∧ b = kept ++ removed ++ rest ∧
      (kept.length : Int) = w.start + p.keep ∧ removed.length = p.remove ∧
      (p.apply b).patched = kept ++ p.insert ++ rest ∧
      (p.apply b).warnings = p.stackWarnings removed := by
  obtain ⟨w, hw, hmin, hz⟩ := match_of_applied (PatchResult.applied_iff.mpr h)
  have hb := hw.1
  have hf := p.fits
  rw [apply_of_match hw hmin hz]
  refine ⟨⟨w, p.pattern.length⟩, b.take (w + p.keep), (b.drop (w + p.keep)).take p.remove,
    b.drop (w + p.keep + p.remove), rfl, ?_, ?_, ?_, rfl, rfl⟩
  · rw [List.append_assoc, Body.take_span_drop]
  · rw [List.length_take]
    simp only
    omega
  · rw [List.length_take, List.length_drop]
    omega

/-- A patch does not warn when its rules give what it removes the effect of what it puts in. -/
theorem warnings_of_effects {ds : List Int}
    (hr : List.Forall₂ Rule.HasEffect ((p.pattern.rules.drop p.keep).take p.remove) ds)
    (hsum : ds.sum = Body.net p.insert) : (p.apply b).warnings = [] := by
  by_cases happlied : (p.apply b).applied = true
  · obtain ⟨w, hw, hmin, hz⟩ := match_of_applied happlied
    rw [apply_of_match hw hmin hz]
    refine stackWarnings_of_eq ?_
    rw [← hsum, ← Body.net_of_effects hr (hw.part p.fits)]
    rfl
  · exact warnings_of_not_applied fun hstatus => happlied (PatchResult.applied_iff.mpr hstatus)

/-! ## The laws -/

/-- Each instruction has an effect on the stack, and so has each body: the sum of the effects of its
instructions. A patch that is applied changes the effect of a body by that of what it puts in less
that of what it removes. It warns exactly when the effect changes, and then it names the two. What
was not applied warns of nothing. -/
theorem the_stack_is_accounted_for :
    (∀ i : Instruction, i.stackDelta? = some i.effect) ∧
    (∀ b : Body, b.stackDelta? = some b.net) ∧
    (∀ b c : Body, Body.net (b ++ c) = b.net + c.net) ∧
    (∀ r : PatchResult, r.status ≠ .applied → r.warnings = []) ∧
    ∀ (p : Patch) (b : Body), (p.apply b).status = .applied →
      ∃ w kept removed rest, (p.apply b).window? = some w ∧ b = kept ++ removed ++ rest ∧
        (kept.length : Int) = w.start + p.keep ∧ removed.length = p.remove ∧
        (p.apply b).patched = kept ++ p.insert ++ rest ∧
        (p.apply b).patched.net - b.net = Body.net p.insert - Body.net removed ∧
        ((p.apply b).warnings = [] ↔ (p.apply b).patched.net = b.net) ∧
        ((p.apply b).patched.net ≠ b.net →
          (p.apply b).warnings.map StackChange.message =
            ["stack effect changes from " ++ Text.signed (Body.net removed) ++ " to " ++
              Text.signed (Body.net p.insert)]) := by
  refine ⟨Instruction.stackDelta?_eq, Body.stackDelta?_eq, Body.net_append,
    fun r => warnings_of_not_applied, ?_⟩
  intro p b h
  obtain ⟨w, kept, removed, rest, hw, hb, hkept, hremoved, hpatched, hwarnings⟩ :=
    parts_of_applied h
  have hchange : (p.apply b).patched.net - b.net = Body.net p.insert - Body.net removed := by
    rw [hpatched, hb]
    simp only [Body.net_append]
    omega
  refine ⟨w, kept, removed, rest, hw, hb, hkept, hremoved, hpatched, hchange, ?_, ?_⟩
  · rw [hwarnings]
    by_cases heq : Body.net removed = Body.net p.insert
    · rw [stackWarnings_of_eq heq]
      simp only [true_iff]
      omega
    · rw [stackWarnings_of_ne heq]
      simp only [List.cons_ne_nil, false_iff]
      omega
  · intro hne
    have hdiffer : Body.net removed ≠ Body.net p.insert := by omega
    rw [hwarnings, stackWarnings_of_ne hdiffer]
    rfl

end Patch

end Peephole
