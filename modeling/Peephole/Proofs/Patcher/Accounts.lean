-- The accounts of a run. Every patch has its result, and the results of one method lead from
-- the body at the start to the body at the end: nothing is lost, and nothing else changes.
import Mathlib.Algebra.Ring.Int.Defs
import Peephole.Proofs.Patcher.Targets

namespace Peephole.Patcher

/-! ## Results that follow each other -/

/-- Results that lead from one body to another. Each patch was tried on what the one before it
left, and what the last one left is there at the end. -/
inductive Leads : Body → List PatchResult → Body → Prop
  | nil {b : Body} : Leads b [] b
  | cons {r : PatchResult} {rs : List PatchResult} {c : Body} :
      Leads r.patched rs c → Leads r.before (r :: rs) c

theorem runOnBody_leads (done : List (String × Selector)) (xs : List Patch) (b : Body) :
    Leads b (runOnBody done xs b).results (runOnBody done xs b).body := by
  induction xs generalizing done b with
  | nil => exact .nil
  | cons x xs ih =>
    have hstep := ih (applyOne done x b).done (applyOne done x b).result.patched
    have hcons := Leads.cons hstep
    rw [applyOne_before] at hcons
    exact hcons

variable {b c : Body} {rs : List PatchResult}

/-- Without an application the body stays. -/
theorem Leads.unchanged (h : Leads b rs c) (hr : ∀ r ∈ rs, r.applied = false) : c = b := by
  induction h with
  | nil => rfl
  | cons _ ih =>
    rw [ih (fun q hq => hr q (List.mem_cons_of_mem _ hq)),
      patched_of_not_applied (hr _ List.mem_cons_self)]

/-! ## Lengths -/

/-- By how much the applications among some results change the length of a body. -/
def totalChange (rs : List PatchResult) : Int :=
  ((rs.filter (·.applied)).map fun r => r.patch.lengthChange).sum

theorem totalChange_cons (r : PatchResult) (rs : List PatchResult) :
    totalChange (r :: rs) = (if r.applied then r.patch.lengthChange else 0) + totalChange rs := by
  unfold totalChange
  cases h : r.applied <;> simp [h]

theorem Allows.length_patched {done : List (String × Selector)} {r : PatchResult}
    (h : Allows done r) :
    (r.patched.length : Int) = r.before.length + if r.applied then r.patch.lengthChange else 0 := by
  cases ha : r.applied with
  | false => rw [patched_of_not_applied ha, if_neg (by simp), Int.add_zero]
  | true =>
    have he := h.of_applied ha
    rw [he] at ha
    have hlen := Patch.length_patched_of_applied ha
    rw [← he] at hlen
    rw [hlen, if_pos rfl]

theorem Leads.length_eq {done : List (String × Selector)} (h : Leads b rs c)
    (hf : Faithful done rs) : (c.length : Int) = b.length + totalChange rs := by
  induction h generalizing done with
  | nil => simp [totalChange]
  | cons _ ih =>
    rw [ih hf.2, hf.1.length_patched, totalChange_cons, Int.add_assoc]

/-! ## The laws -/

/-- A run on a store gives one result for each patch, in order; a result says that its method is
missing exactly when the store does not bind it, and the methods stay as they are. The results of
a method lead from its body before the run to its body after it. So this body is longer by what
the applications add up to, and without an application it is what it was. -/
theorem a_run_accounts_for_every_patch (p : Patcher) (s : BodyStore) :
    let run := (p.applyAll s).2
    run.results.map PatchResult.patch = p.patches ∧
    (∀ r ∈ run.results, r.status = .methodMissing ↔ r.patch.target ∉ s.keys) ∧
    run.store.keys = s.keys ∧
    ∀ k b, s.find? k = some b →
      ∃ c, run.store.find? k = some c ∧ Leads b (resultsFor k run.results) c ∧
        (c.length : Int) = b.length + totalChange (resultsFor k run.results) ∧
        ((∀ r ∈ resultsFor k run.results, r.applied = false) → c = b) := by
  intro run
  refine ⟨runOnStore_patches _ _ s, runOnStore_missing_iff _ _ s, runOnStore_keys _ _ s, ?_⟩
  intro k b hb
  obtain ⟨hfind, hresults⟩ := runOnStore_at p.patches (SameOn.refl k p.done) hb
  have hleads := runOnBody_leads p.done (p.patchesFor k) b
  have hfaithful := runOnBody_faithful p.done (p.patchesFor k) b
  refine ⟨_, hfind, ?_⟩
  change resultsFor k run.results = (runOnBody p.done (p.patchesFor k) b).results at hresults
  rw [hresults]
  exact ⟨hleads, hleads.length_eq hfaithful, hleads.unchanged⟩

/-- Four patches on a store of two bodies. One method is patched, then tried in vain, then patched
again, and in between a patch has no method; the other body stays. -/
theorem a_body_patched_twice_with_failures_between :
    let nop : Instruction := ⟨.nop, none, [], [], rfl⟩
    let pop : Instruction := ⟨.pop, none, [], [], rfl⟩
    let ret : Instruction := ⟨.ret, none, [], [], rfl⟩
    let m : Selector := ⟨"T", "m", []⟩
    let other : Selector := ⟨"T", "other", []⟩
    let gone : Selector := ⟨"T", "gone", []⟩
    let grow : Patch := ⟨"grow", m, ⟨"nop", [.exact .nop none], by simp⟩, 0, 1,
      [pop, pop, pop], by simp, by decide⟩
    let vain : Patch := ⟨"vain", m, ⟨"dup", [.exact .dup none], by simp⟩, 0, 1, [],
      by simp, by decide⟩
    let lost : Patch := ⟨"lost", gone, ⟨"nop", [.exact .nop none], by simp⟩, 0, 1, [],
      by simp, by decide⟩
    let shrink : Patch := ⟨"shrink", m, ⟨"ret", [.exact .ret none], by simp⟩, 0, 1, [],
      by simp, by decide⟩
    let s : BodyStore := .ofList [(m, [nop, ret]), (other, [ret])]
    let run := ((ofPatches [grow, vain, lost, shrink]).applyAll s).2
    run.results.map PatchResult.status = [.applied, .patternNotFound, .methodMissing, .applied] ∧
      run.store.find? m = some [pop, pop, pop] ∧ totalChange (resultsFor m run.results) = 1 ∧
      run.store.find? other = some [ret] := by
  intro nop pop ret m other gone grow vain lost shrink s run
  have hstatus : run.results.map PatchResult.status =
      [.applied, .patternNotFound, .methodMissing, .applied] := by
    -- The run is computed only when every name in it is replaced by what it stands for.
    subst run s shrink lost vain grow gone other m ret pop nop
    rfl
  have hm : run.store.find? m = some [pop, pop, pop] := by
    subst run s shrink lost vain grow gone other m ret pop nop
    rfl
  have hnone : resultsFor other run.results = [] := by
    subst run s shrink lost vain grow gone other m ret pop nop
    rfl
  obtain ⟨_, _, _, haccount⟩ :=
    a_run_accounts_for_every_patch (ofPatches [grow, vain, lost, shrink]) s
  obtain ⟨c, hc, _, hlength, _⟩ := haccount m [nop, ret] rfl
  obtain ⟨c', hc', _, _, hsame⟩ := haccount other [ret] rfl
  refine ⟨hstatus, hm, ?_, ?_⟩
  · have he : [pop, pop, pop] = c := Option.some.inj (hm.symm.trans hc)
    rw [← he] at hlength
    change (3 : Int) = 2 + totalChange (resultsFor m run.results) at hlength
    omega
  · rw [hc', hsame (by rw [hnone]; simp)]

end Peephole.Patcher
