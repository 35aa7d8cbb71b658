-- What patching makes of bodies. A relation between a body and what becomes of it that
-- every patch keeps is kept by every run, on one body or on all bodies of a store.
import Peephole.Patch.Patcher

namespace Peephole.Patcher

/-! ## One patch -/

/-- A patch that was applied before leaves the body as it is. -/
theorem applyOne_patched_cases (done : List (String × Selector)) (x : Patch) (b : Body) :
    (applyOne done x b).result.patched = b ∨
      (applyOne done x b).result.patched = (x.apply b).patched := by
  unfold applyOne
  split
  · exact Or.inl rfl
  · exact Or.inr rfl

theorem applyOne_patch (done : List (String × Selector)) (x : Patch) (b : Body) :
    (applyOne done x b).result.patch = x := by
  unfold applyOne
  split <;> rfl

/-- A result that is not that of an application has the body it was given. -/
theorem patched_of_not_applied {r : PatchResult} (h : r.applied = false) :
    r.patched = r.before := by
  unfold PatchResult.applied PatchResult.status at h
  unfold PatchResult.patched
  cases ho : r.outcome with
  | applied w patched warnings => rw [ho] at h; cases h
  | patternNotFound => rfl
  | unsafeRemoval w hazard => rfl
  | methodMissing => rfl
  | alreadyApplied => rfl

theorem applyOne_before (done : List (String × Selector)) (x : Patch) (b : Body) :
    (applyOne done x b).result.before = b := by
  unfold applyOne
  split <;> rfl

/-! ## The store after one patch -/

/-- The bodies of other methods stay, and the body of the method is the one to go on with. -/
theorem find?_install_applyIn (done : List (String × Selector)) (x : Patch) (s : BodyStore)
    (k : Selector) :
    (install s (applyIn done x s).result).find? k =
      if k = x.target then (s.find? k).map fun b => (applyOne done x b).result.patched
      else s.find? k := by
  unfold install applyIn
  cases hs : s.find? x.target with
  | none =>
    have hm : (missing done x).result.applied = false := rfl
    simp only [hm, Bool.false_eq_true, if_false]
    split
    · rename_i hk
      rw [hk, hs]
      rfl
    · rfl
  | some b =>
    simp only
    cases ha : (applyOne done x b).result.applied with
    | false =>
      simp only [Bool.false_eq_true, if_false]
      split
      · rename_i hk
        rw [hk, hs, Option.map_some, patched_of_not_applied ha, applyOne_before]
      · rfl
    | true =>
      simp only [if_true]
      rw [OrderedMap.find?_insert, applyOne_patch]
      split
      · rename_i hk
        rw [hk, hs]
        rfl
      · rfl

/-! ## Runs -/

variable {R : Body → Body → Prop} {xs : List Patch}

/-- What a patch does to a body keeps the relation to the body at the start. -/
def Keeps (R : Body → Body → Prop) (x : Patch) : Prop :=
  ∀ b c, R b c → R b (x.apply c).patched

theorem Keeps.applyOne {x : Patch} (h : Keeps R x) (done : List (String × Selector))
    {b c : Body} (hr : R b c) : R b (applyOne done x c).result.patched := by
  rcases applyOne_patched_cases done x c with he | he
  · rw [he]
    exact hr
  · rw [he]
    exact h b c hr

theorem runOnBody_keeps (h : ∀ x ∈ xs, Keeps R x) (done : List (String × Selector))
    {b c : Body} (hr : R b c) : R b (runOnBody done xs c).body := by
  induction xs generalizing done c with
  | nil => exact hr
  | cons x xs ih =>
    unfold runOnBody
    exact ih (fun y hy => h y (List.mem_cons_of_mem _ hy)) _
      ((h x List.mem_cons_self).applyOne done hr)

theorem rel_map {o o' : Option Body} (h : Option.Rel R o o') {f : Body → Body}
    (hf : ∀ b c, R b c → R b (f c)) : Option.Rel R o (o'.map f) := by
  cases h with
  | none => exact .none
  | some hbc => exact .some (hf _ _ hbc)

theorem runOnStore_keeps (h : ∀ x ∈ xs, Keeps R x) (done : List (String × Selector))
    {s t : BodyStore} (hr : ∀ k, Option.Rel R (s.find? k) (t.find? k)) (k : Selector) :
    Option.Rel R (s.find? k) ((runOnStore done xs t).store.find? k) := by
  induction xs generalizing done t with
  | nil => exact hr k
  | cons x xs ih =>
    unfold runOnStore
    refine ih (fun y hy => h y (List.mem_cons_of_mem _ hy)) _ ?_
    intro j
    rw [find?_install_applyIn]
    split
    · exact rel_map (hr j) fun b c hbc => (h x List.mem_cons_self).applyOne done hbc
    · exact hr j

end Peephole.Patcher
