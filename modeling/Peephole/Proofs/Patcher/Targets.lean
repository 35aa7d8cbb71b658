-- Methods do not meddle with each other. What a run on a store does to the body of one
-- method is what a run on this body alone does with the patches of the method.
import Peephole.Proofs.Patcher.Memory

namespace Peephole.Patcher

variable {d e : List (String × Selector)} {x : Patch} {b : Body} {k : Selector} {s : BodyStore}

/-! ## Memories that agree on a method -/

/-- Two memories hold the same patches of a method. -/
def SameOn (k : Selector) (d e : List (String × Selector)) : Prop := ∀ n, (n, k) ∈ d ↔ (n, k) ∈ e

theorem SameOn.refl (k : Selector) (d : List (String × Selector)) : SameOn k d d :=
  fun _ => Iff.rfl

theorem SameOn.marked (h : SameOn k d e) (r : PatchResult) :
    SameOn k (marked d r) (marked e r) := by
  intro n
  rw [mem_marked, mem_marked, h n]

/-- A result of another method adds nothing that counts for this one. -/
theorem SameOn.marked_left (h : SameOn k d e) {r : PatchResult} (hr : r.patch.target ≠ k) :
    SameOn k (Patcher.marked d r) e := by
  intro n
  rw [mem_marked, h n, or_iff_left]
  rintro ⟨_, hk⟩
  exact hr (congrArg Prod.snd hk)

theorem SameOn.foldl_marked_right {rs : List PatchResult} (hr : ∀ r ∈ rs, r.patch.target ≠ k) :
    SameOn k d (rs.foldl Patcher.marked d) := by
  intro n
  rw [mem_foldl_marked, or_iff_left]
  rintro ⟨r, hm, _, hk⟩
  exact hr r hm (congrArg Prod.snd hk)

/-- What a patch gives depends on what is remembered of its own method alone. -/
theorem applyOne_result_congr (h : SameOn x.target d e) :
    (applyOne d x b).result = (applyOne e x b).result := by
  by_cases hd : (x.name, x.target) ∈ d
  · rw [applyOne_of_mem hd, applyOne_of_mem ((h x.name).mp hd)]
  · rw [applyOne_of_not_mem hd, applyOne_of_not_mem (fun he => hd ((h x.name).mpr he))]

/-- What the patches of a method give depends on what is remembered of the method alone. -/
theorem runOnBody_congr {xs : List Patch} (hx : ∀ x ∈ xs, x.target = k) (h : SameOn k d e) :
    (runOnBody d xs b).body = (runOnBody e xs b).body ∧
      (runOnBody d xs b).results = (runOnBody e xs b).results := by
  induction xs generalizing d e b with
  | nil => exact ⟨rfl, rfl⟩
  | cons x xs ih =>
    obtain rfl := hx x List.mem_cons_self
    have hr : (applyOne d x b).result = (applyOne e x b).result := applyOne_result_congr h
    have hm : SameOn x.target (applyOne d x b).done (applyOne e x b).done := by
      rw [applyOne_done, applyOne_done, hr]
      exact h.marked _
    obtain ⟨hbody, hresults⟩ :=
      ih (b := (applyOne e x b).result.patched) (fun y hy => hx y (List.mem_cons_of_mem _ hy)) hm
    unfold runOnBody
    simp only [hr, hbody, hresults, and_self]

/-! ## The keys of a store -/

theorem keys_install_applyIn (done : List (String × Selector)) (x : Patch) (s : BodyStore) :
    (install s (applyIn done x s).result).keys = s.keys := by
  unfold install
  split
  · rename_i ha
    rw [OrderedMap.keys_insert, if_pos]
    rw [applyIn_patch, ← OrderedMap.find?_isSome_iff]
    unfold applyIn at ha
    cases hs : s.find? x.target with
    | some b => rfl
    | none =>
      rw [hs] at ha
      cases ha
  · rfl

/-- A run binds the methods that were bound, in their order. -/
theorem runOnStore_keys (done : List (String × Selector)) (xs : List Patch) (s : BodyStore) :
    (runOnStore done xs s).store.keys = s.keys := by
  induction xs generalizing done s with
  | nil => rfl
  | cons x xs ih =>
    unfold runOnStore
    simp only
    rw [ih, keys_install_applyIn]

/-! ## Methods that are not there -/

theorem applyOne_status_ne_missing (done : List (String × Selector)) (x : Patch) (b : Body) :
    (applyOne done x b).result.status ≠ .methodMissing := by
  by_cases h : (x.name, x.target) ∈ done
  · rw [applyOne_of_mem h]
    simp [PatchResult.status, Outcome.status]
  · rw [applyOne_of_not_mem h]
    exact (x.apply_status_ne b).1

theorem applyIn_missing_iff (done : List (String × Selector)) (x : Patch) (s : BodyStore) :
    (applyIn done x s).result.status = .methodMissing ↔ x.target ∉ s.keys := by
  rw [← OrderedMap.find?_eq_none_iff]
  unfold applyIn
  cases hs : s.find? x.target with
  | some b =>
    simp only [reduceCtorEq, iff_false]
    exact applyOne_status_ne_missing done x b
  | none => exact ⟨fun _ => rfl, fun _ => rfl⟩

/-- A result says that a method is missing exactly when the store does not bind the method. -/
theorem runOnStore_missing_iff (done : List (String × Selector)) (xs : List Patch)
    (s : BodyStore) :
    ∀ r ∈ (runOnStore done xs s).results, r.status = .methodMissing ↔ r.patch.target ∉ s.keys := by
  induction xs generalizing done s with
  | nil => simp [runOnStore]
  | cons x xs ih =>
    intro r hr
    unfold runOnStore at hr
    rcases List.mem_cons.mp hr with rfl | hr
    · rw [applyIn_patch]
      exact applyIn_missing_iff done x s
    · rw [← keys_install_applyIn done x s]
      exact ih _ _ r hr

theorem runOnBody_status_ne_missing (done : List (String × Selector)) (xs : List Patch)
    (b : Body) : ∀ r ∈ (runOnBody done xs b).results, r.status ≠ .methodMissing := by
  induction xs generalizing done b with
  | nil => simp [runOnBody]
  | cons x xs ih =>
    intro r hr
    unfold runOnBody at hr
    rcases List.mem_cons.mp hr with rfl | hr
    · exact applyOne_status_ne_missing done x b
    · exact ih _ _ r hr

/-! ## One method of a store -/

/-- The results of a method. -/
def resultsFor (k : Selector) (rs : List PatchResult) : List PatchResult :=
  rs.filter fun r => r.patch.target == k

/-- On a method that is bound, a run on the store is the run on its body. -/
theorem runOnStore_at (xs : List Patch) (h : SameOn k d e) (hs : s.find? k = some b) :
    (runOnStore d xs s).store.find? k =
        some (runOnBody e (xs.filter fun x => x.target == k) b).body ∧
      resultsFor k (runOnStore d xs s).results =
        (runOnBody e (xs.filter fun x => x.target == k) b).results := by
  -- The two runs meet at the patches of the method; the store run alone goes on at the others.
  induction xs generalizing d e s b with
  | nil => exact ⟨hs, rfl⟩
  | cons x xs ih =>
    have hstep := find?_install_applyIn d x s k
    by_cases hx : x.target = k
    · have hin : applyIn d x s = applyOne d x b := by
        unfold applyIn
        rw [hx, hs]
      have hr : (applyOne d x b).result = (applyOne e x b).result :=
        applyOne_result_congr (hx ▸ h)
      have hm : SameOn k (applyOne d x b).done (applyOne e x b).done := by
        rw [applyOne_done, applyOne_done, hr]
        exact h.marked _
      rw [if_pos hx.symm, hs, Option.map_some, hin] at hstep
      obtain ⟨hfind, hresults⟩ := ih hm hstep
      simp only [List.filter_cons, hx, beq_self_eq_true, if_true, resultsFor, runOnStore,
        runOnBody, hin, applyOne_patch, ← hr]
      exact ⟨hfind, congrArg _ hresults⟩
    · have hm : SameOn k (applyIn d x s).done e := by
        rw [applyIn_done]
        exact h.marked_left (by rwa [applyIn_patch])
      rw [if_neg (Ne.symm hx), hs] at hstep
      obtain ⟨hfind, hresults⟩ := ih hm hstep
      simp only [List.filter_cons, beq_iff_eq, hx, if_false, resultsFor, runOnStore, applyIn_patch]
      exact ⟨hfind, hresults⟩

/-- Each patch of a method that is not bound is answered by this, and the method stays unbound. -/
theorem runOnStore_at_unbound (done : List (String × Selector)) (xs : List Patch)
    (hs : s.find? k = none) :
    (runOnStore done xs s).store.find? k = none ∧
      resultsFor k (runOnStore done xs s).results =
        (xs.filter fun x => x.target == k).map fun x => ⟨x, [], .methodMissing⟩ := by
  induction xs generalizing done s with
  | nil => exact ⟨hs, rfl⟩
  | cons x xs ih =>
    have hstep : (install s (applyIn done x s).result).find? k = none := by
      rw [find?_install_applyIn, hs, Option.map_none, ite_self]
    obtain ⟨hfind, hresults⟩ := ih (applyIn done x s).done hstep
    refine ⟨hfind, ?_⟩
    by_cases hx : x.target = k
    · have hin : (applyIn done x s).result = ⟨x, [], .methodMissing⟩ := by
        unfold applyIn
        rw [hx, hs]
        rfl
      simp only [List.filter_cons, hx, beq_self_eq_true, if_true, resultsFor, runOnStore,
        applyIn_patch, List.map_cons]
      rw [hin]
      rw [hin] at hresults
      exact congrArg _ hresults
    · simp only [List.filter_cons, beq_iff_eq, hx, if_false, resultsFor, runOnStore, applyIn_patch]
      exact hresults

end Peephole.Patcher
