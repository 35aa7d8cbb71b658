-- What a patcher remembers. It remembers the patch and the method of each result that was
-- applied, and of no other. What it answers depends on the body and on this memory alone.
import Peephole.Proofs.Patch.Outcomes
import Peephole.Proofs.Patcher.Relation

namespace Peephole

/-- The name of the patch of a result, and the method. A patcher remembers a patch by these. -/
def PatchResult.key (r : PatchResult) : String × Selector := (r.patch.name, r.patch.target)

namespace Patcher

variable {done : List (String × Selector)} {x : Patch} {b : Body}

/-! ## The memory after a result -/

/-- What is remembered after a result. -/
def marked (done : List (String × Selector)) (r : PatchResult) : List (String × Selector) :=
  if r.applied then done ++ [r.key] else done

theorem mem_marked {r : PatchResult} {k : String × Selector} :
    k ∈ marked done r ↔ k ∈ done ∨ (r.applied = true ∧ r.key = k) := by
  unfold marked
  split
  · rename_i h
    simp [h, eq_comm]
  · rename_i h
    simp [h]

theorem mem_foldl_marked {rs : List PatchResult} {k : String × Selector} :
    k ∈ rs.foldl marked done ↔ k ∈ done ∨ ∃ r ∈ rs, r.applied = true ∧ r.key = k := by
  induction rs generalizing done with
  | nil => simp
  | cons r rs ih =>
    rw [List.foldl_cons, ih, mem_marked, or_assoc]
    simp only [List.mem_cons, exists_eq_or_imp]

/-! ## One patch -/

theorem applyOne_of_mem (h : (x.name, x.target) ∈ done) :
    (applyOne done x b).result = ⟨x, b, .alreadyApplied⟩ := by
  unfold applyOne
  rw [if_pos (List.contains_iff_mem.mpr h)]

theorem applyOne_of_not_mem (h : (x.name, x.target) ∉ done) :
    (applyOne done x b).result = x.apply b := by
  unfold applyOne
  rw [if_neg (by rwa [List.contains_iff_mem])]

theorem applyOne_done (done : List (String × Selector)) (x : Patch) (b : Body) :
    (applyOne done x b).done = marked done (applyOne done x b).result := by
  unfold applyOne
  split <;> rfl

theorem applyIn_done (done : List (String × Selector)) (x : Patch) (s : BodyStore) :
    (applyIn done x s).done = marked done (applyIn done x s).result := by
  unfold applyIn
  split
  · exact applyOne_done done x _
  · rfl

theorem applyIn_patch (done : List (String × Selector)) (x : Patch) (s : BodyStore) :
    (applyIn done x s).result.patch = x := by
  unfold applyIn
  split
  · exact applyOne_patch done x _
  · rfl

/-! ## What a memory allows -/

/-- The results that a memory allows: of a method that is not there, of a patch that was applied
before, or else what becomes of the patch on the body. -/
def Allows (done : List (String × Selector)) (r : PatchResult) : Prop :=
  r.status = .methodMissing ∨ (r.key ∈ done ∧ r.status = .alreadyApplied) ∨
    (r.key ∉ done ∧ r = r.patch.apply r.before)

theorem allows_applyOne (done : List (String × Selector)) (x : Patch) (b : Body) :
    Allows done (applyOne done x b).result := by
  by_cases h : (x.name, x.target) ∈ done
  · rw [applyOne_of_mem h]
    exact Or.inr (Or.inl ⟨h, rfl⟩)
  · rw [applyOne_of_not_mem h]
    exact Or.inr (Or.inr ⟨h, rfl⟩)

theorem allows_applyIn (done : List (String × Selector)) (x : Patch) (s : BodyStore) :
    Allows done (applyIn done x s).result := by
  unfold applyIn
  split
  · exact allows_applyOne done x _
  · exact Or.inl rfl

theorem applied_of_skipped {r : PatchResult}
    (h : r.status = .alreadyApplied ∨ r.status = .methodMissing) : r.applied = false := by
  unfold PatchResult.applied
  rcases h with h | h
  · rw [h]
    rfl
  · rw [h]
    rfl

namespace Allows

variable {r : PatchResult}

theorem of_mem (h : Allows done r) (hk : r.key ∈ done) :
    r.status = .alreadyApplied ∨ r.status = .methodMissing := by
  rcases h with h | ⟨_, h⟩ | ⟨hn, _⟩
  · exact Or.inr h
  · exact Or.inl h
  · exact absurd hk hn

theorem of_not_mem (h : Allows done r) (hk : r.key ∉ done) :
    r.status = .methodMissing ∨ r = r.patch.apply r.before := by
  rcases h with h | ⟨hm, _⟩ | ⟨_, h⟩
  · exact Or.inl h
  · exact absurd hm hk
  · exact Or.inr h

theorem mem_of_alreadyApplied (h : Allows done r) (hs : r.status = .alreadyApplied) :
    r.key ∈ done := by
  rcases h with h | ⟨hm, _⟩ | ⟨_, h⟩
  · rw [hs] at h
    cases h
  · exact hm
  · rw [h] at hs
    exact absurd hs (r.patch.apply_status_ne r.before).2

/-- A result of an application comes from trying the patch. -/
theorem of_applied (h : Allows done r) (ha : r.applied = true) : r = r.patch.apply r.before := by
  by_cases hk : r.key ∈ done
  · exact absurd (applied_of_skipped (h.of_mem hk)) (by simp [ha])
  · rcases h.of_not_mem hk with hm | h
    · exact absurd (applied_of_skipped (Or.inr hm)) (by simp [ha])
    · exact h

end Allows

/-- Each result is one that the memory before it allows. -/
def Faithful : List (String × Selector) → List PatchResult → Prop
  | _, [] => True
  | done, r :: rs => Allows done r ∧ Faithful (marked done r) rs

theorem faithful_append {rs qs : List PatchResult} :
    Faithful done (rs ++ qs) ↔ Faithful done rs ∧ Faithful (rs.foldl marked done) qs := by
  induction rs generalizing done with
  | nil => simp [Faithful]
  | cons r rs ih => simp only [List.cons_append, Faithful, ih, List.foldl_cons, and_assoc]

/-! ## Runs -/

theorem runOnBody_done (done : List (String × Selector)) (xs : List Patch) (b : Body) :
    (runOnBody done xs b).done = (runOnBody done xs b).results.foldl marked done := by
  induction xs generalizing done b with
  | nil => rfl
  | cons x xs ih =>
    unfold runOnBody
    simp only [List.foldl_cons]
    rw [ih, applyOne_done]

theorem runOnStore_done (done : List (String × Selector)) (xs : List Patch) (s : BodyStore) :
    (runOnStore done xs s).done = (runOnStore done xs s).results.foldl marked done := by
  induction xs generalizing done s with
  | nil => rfl
  | cons x xs ih =>
    unfold runOnStore
    simp only [List.foldl_cons]
    rw [ih, applyIn_done]

theorem runOnBody_faithful (done : List (String × Selector)) (xs : List Patch) (b : Body) :
    Faithful done (runOnBody done xs b).results := by
  induction xs generalizing done b with
  | nil => trivial
  | cons x xs ih =>
    unfold runOnBody
    refine ⟨allows_applyOne done x b, ?_⟩
    rw [← applyOne_done]
    exact ih _ _

theorem runOnStore_faithful (done : List (String × Selector)) (xs : List Patch) (s : BodyStore) :
    Faithful done (runOnStore done xs s).results := by
  induction xs generalizing done s with
  | nil => trivial
  | cons x xs ih =>
    unfold runOnStore
    refine ⟨allows_applyIn done x s, ?_⟩
    rw [← applyIn_done]
    exact ih _ _

/-- A run on a body gives one result for each patch. -/
theorem runOnBody_patches (done : List (String × Selector)) (xs : List Patch) (b : Body) :
    (runOnBody done xs b).results.map PatchResult.patch = xs := by
  induction xs generalizing done b with
  | nil => rfl
  | cons x xs ih =>
    unfold runOnBody
    rw [List.map_cons, ih, applyOne_patch]

/-- A run on a store gives one result for each patch. -/
theorem runOnStore_patches (done : List (String × Selector)) (xs : List Patch) (s : BodyStore) :
    (runOnStore done xs s).results.map PatchResult.patch = xs := by
  induction xs generalizing done s with
  | nil => rfl
  | cons x xs ih =>
    unfold runOnStore
    rw [List.map_cons, ih, applyIn_patch]

end Patcher

end Peephole
