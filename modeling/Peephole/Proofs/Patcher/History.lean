-- The history of a patcher. It may be asked again and again, on one store and on another, or on
-- bodies that are in no store. No patch is applied to a method twice, and what failed is tried
-- again.
import Peephole.Proofs.Patcher.Targets

namespace Peephole

/-- What a patcher is given in one round: a store of bodies, or one body of a method. -/
inductive Round where
  | onStore (s : BodyStore)
  | onBody (target : Selector) (b : Body)

/-- Whether there is a body of the method in a round. -/
def Round.Holds (k : Selector) : Round → Prop
  | .onStore s => k ∈ s.keys
  | .onBody .. => True

namespace Patcher

variable {p : Patcher} {done : List (String × Selector)} {rs : List PatchResult}

/-! ## Rounds -/

/-- The patcher after a round, and the results of the round. -/
def answer (p : Patcher) : Round → Patcher × List PatchResult
  | .onStore s => ((p.applyAll s).1, (p.applyAll s).2.results)
  | .onBody k b => ((p.patchBody k b).1, (p.patchBody k b).2.results)

/-- The patches that are up in a round. -/
def patchesIn (p : Patcher) : Round → List Patch
  | .onStore _ => p.patches
  | .onBody k _ => p.patchesFor k

/-- The patcher after some rounds. -/
def afterAll (p : Patcher) (rounds : List Round) : Patcher :=
  rounds.foldl (fun p round => (p.answer round).1) p

/-- The results of some rounds, in order. -/
def history (p : Patcher) : List Round → List PatchResult
  | [] => []
  | round :: rounds => (p.answer round).2 ++ (p.answer round).1.history rounds

theorem answer_patches (p : Patcher) (round : Round) :
    (p.answer round).2.map PatchResult.patch = p.patchesIn round := by
  cases round with
  | onStore s => exact runOnStore_patches p.done p.patches s
  | onBody k b => exact runOnBody_patches p.done (p.patchesFor k) b

theorem answer_done (p : Patcher) (round : Round) :
    (p.answer round).1.done = (p.answer round).2.foldl marked p.done := by
  cases round with
  | onStore s => exact runOnStore_done p.done p.patches s
  | onBody k b => exact runOnBody_done p.done (p.patchesFor k) b

theorem answer_faithful (p : Patcher) (round : Round) : Faithful p.done (p.answer round).2 := by
  cases round with
  | onStore s => exact runOnStore_faithful p.done p.patches s
  | onBody k b => exact runOnBody_faithful p.done (p.patchesFor k) b

theorem answer_missing_iff (p : Patcher) (round : Round) :
    ∀ r ∈ (p.answer round).2, r.status = .methodMissing ↔ ¬ round.Holds r.patch.target := by
  cases round with
  | onStore s => exact runOnStore_missing_iff p.done p.patches s
  | onBody k b =>
    intro r hr
    simp only [Round.Holds, not_true_eq_false, iff_false]
    exact runOnBody_status_ne_missing p.done (p.patchesFor k) b r hr

theorem afterAll_patches (p : Patcher) (rounds : List Round) :
    (p.afterAll rounds).patches = p.patches := by
  induction rounds generalizing p with
  | nil => rfl
  | cons round rounds ih =>
    unfold afterAll
    rw [List.foldl_cons]
    refine (ih _).trans ?_
    cases round <;> rfl

theorem patchesIn_afterAll (p : Patcher) (rounds : List Round) (round : Round) :
    (p.afterAll rounds).patchesIn round = p.patchesIn round := by
  cases round with
  | onStore s => exact afterAll_patches p rounds
  | onBody k b => exact congrArg (List.filter _) (afterAll_patches p rounds)

theorem afterAll_done (p : Patcher) (rounds : List Round) :
    (p.afterAll rounds).done = (p.history rounds).foldl marked p.done := by
  induction rounds generalizing p with
  | nil => rfl
  | cons round rounds ih =>
    unfold history
    rw [List.foldl_append, ← answer_done]
    exact ih _

theorem history_faithful (p : Patcher) (rounds : List Round) :
    Faithful p.done (p.history rounds) := by
  induction rounds generalizing p with
  | nil => trivial
  | cons round rounds ih =>
    unfold history
    rw [faithful_append, ← answer_done]
    exact ⟨answer_faithful p round, ih _⟩

/-! ## What a memory does to the results after it -/

/-- What is remembered is not tried again. -/
theorem Faithful.status_of_mem {k : String × Selector} (h : Faithful done rs) (hk : k ∈ done) :
    ∀ r ∈ rs, r.key = k → r.status = .alreadyApplied ∨ r.status = .methodMissing := by
  induction rs generalizing done with
  | nil => simp
  | cons q rs ih =>
    obtain ⟨hq, hrest⟩ := h
    intro r hr hrk
    rcases List.mem_cons.mp hr with rfl | hr
    · exact hq.of_mem (hrk ▸ hk)
    · exact ih hrest (mem_marked.mpr (Or.inl hk)) r hr hrk

/-- What was applied is remembered after some results. -/
theorem Faithful.key_mem (h : Faithful done rs) {r : PatchResult} (hr : r ∈ rs)
    (hs : r.status = .applied ∨ r.status = .alreadyApplied) : r.key ∈ rs.foldl marked done := by
  induction rs generalizing done with
  | nil => cases hr
  | cons q rs ih =>
    rcases List.mem_cons.mp hr with rfl | hr
    · rw [List.foldl_cons, mem_foldl_marked, mem_marked]
      left
      rcases hs with hs | hs
      · exact Or.inr ⟨beq_iff_eq.mpr hs, rfl⟩
      · exact Or.inl (h.1.mem_of_alreadyApplied hs)
    · exact ih h.2 hr

/-- Of two results of a patch and a method the later one never undoes the earlier one. -/
theorem Faithful.pairwise (h : Faithful done rs) :
    rs.Pairwise fun q r => q.key = r.key →
      (q.applied = true → r.status = .alreadyApplied ∨ r.status = .methodMissing) ∧
      (r.applied = true → q.status ≠ .alreadyApplied) := by
  -- An application is remembered after it, and a skip was remembered before it.
  induction rs generalizing done with
  | nil => exact List.Pairwise.nil
  | cons q rs ih =>
    obtain ⟨hq, hrest⟩ := h
    refine List.Pairwise.cons ?_ (ih hrest)
    intro r hr hk
    constructor
    · intro ha
      exact hrest.status_of_mem (mem_marked.mpr (Or.inr ⟨ha, rfl⟩)) r hr hk.symm
    · intro ha hs
      have hmem : q.key ∈ marked done q := mem_marked.mpr (Or.inl (hq.mem_of_alreadyApplied hs))
      have hn := applied_of_skipped (hrest.status_of_mem hmem r hr hk.symm)
      exact Bool.false_ne_true (hn.symm.trans ha)

/-- No two applications have the same patch and method. -/
theorem Faithful.nodup_applied (h : Faithful done rs) :
    ((rs.filter (·.applied)).map PatchResult.key).Nodup := by
  unfold List.Nodup
  rw [List.pairwise_map, List.pairwise_filter]
  refine h.pairwise.imp ?_
  intro q r hqr hq hr hk
  have hn := applied_of_skipped ((hqr hk).1 hq)
  exact Bool.false_ne_true (hn.symm.trans hr)

/-- Patches that are all different, and of which none is remembered, are all tried. -/
theorem Faithful.status_ne_alreadyApplied (h : Faithful done rs)
    (hkeys : (rs.map PatchResult.key).Nodup) (hdone : ∀ r ∈ rs, r.key ∉ done) :
    ∀ r ∈ rs, r.status ≠ .alreadyApplied := by
  induction rs generalizing done with
  | nil => simp
  | cons q rs ih =>
    obtain ⟨hq, hrest⟩ := h
    obtain ⟨hfirst, hkeys⟩ := List.nodup_cons.mp hkeys
    rw [List.forall_mem_cons] at hdone ⊢
    refine ⟨fun hs => hdone.1 (hq.mem_of_alreadyApplied hs), ih hrest hkeys ?_⟩
    intro r hr hm
    rcases mem_marked.mp hm with hm | ⟨_, hk⟩
    · exact hdone.2 r hr hm
    · exact hfirst (hk ▸ List.mem_map_of_mem hr)

/-! ## Runs that find nothing to do -/

theorem status_of_ok (h : (Report.mk rs).ok = true) :
    ∀ r ∈ rs, r.status = .applied ∨ r.status = .alreadyApplied := by
  intro r hr
  unfold Report.ok Report.failed at h
  rw [List.isEmpty_iff, List.filter_eq_nil_iff] at h
  have hf := h r hr
  unfold PatchResult.failed at hf
  simp only [Bool.and_eq_true, bne_iff_ne, ne_eq, not_and, Decidable.not_not] at hf
  by_cases ha : r.status = .applied
  · exact Or.inl ha
  · exact Or.inr (hf ha)

theorem ok_of_status (h : ∀ r ∈ rs, r.status = .alreadyApplied) : (Report.mk rs).ok = true := by
  unfold Report.ok Report.failed
  rw [List.isEmpty_iff, List.filter_eq_nil_iff]
  intro r hr
  unfold PatchResult.failed
  rw [h r hr]
  decide

/-- A store on which nothing is applied stays. -/
theorem runOnStore_unchanged (done : List (String × Selector)) (xs : List Patch) (s : BodyStore)
    (h : ∀ r ∈ (runOnStore done xs s).results, r.applied = false) :
    (runOnStore done xs s).store = s := by
  induction xs generalizing done s with
  | nil => rfl
  | cons x xs ih =>
    unfold runOnStore at h ⊢
    have hx : (applyIn done x s).result.applied = false := h _ List.mem_cons_self
    have hs : install s (applyIn done x s).result = s := by
      unfold install
      rw [hx]
      rfl
    simp only [hs] at h ⊢
    exact ih _ _ fun r hr => h r (List.mem_cons_of_mem _ hr)

/-- Patches that are remembered and whose methods are there are all answered by this. -/
theorem runOnStore_status_of_mem {xs : List Patch} {s : BodyStore}
    (hdone : ∀ x ∈ xs, (x.name, x.target) ∈ done) (hkeys : ∀ x ∈ xs, x.target ∈ s.keys) :
    ∀ r ∈ (runOnStore done xs s).results, r.status = .alreadyApplied := by
  intro r hr
  have hx : r.patch ∈ xs := by
    rw [← runOnStore_patches done xs s]
    exact List.mem_map_of_mem hr
  have hmissing := mt (runOnStore_missing_iff done xs s r hr).mp (not_not_intro (hkeys _ hx))
  exact ((runOnStore_faithful done xs s).status_of_mem (hdone _ hx) r hr rfl).resolve_right hmissing

/-- After a run without failures there is nothing left to do on the store. -/
theorem applyAll_after_ok {s : BodyStore}
    (hok : (Report.mk (p.applyAll s).2.results).ok = true) (more : List Round) :
    ∀ r ∈ (((p.applyAll s).1.afterAll more).applyAll (p.applyAll s).2.store).2.results,
      r.status = .alreadyApplied := by
  have hstatus := status_of_ok hok
  have hpatches := runOnStore_patches p.done p.patches s
  refine runOnStore_status_of_mem ?_ ?_
  · rw [afterAll_patches]
    intro x hx
    obtain ⟨r, hr, rfl⟩ := List.mem_map.mp (hpatches ▸ hx)
    have hmem := (runOnStore_faithful p.done p.patches s).key_mem hr (hstatus r hr)
    rw [← runOnStore_done] at hmem
    rw [afterAll_done, mem_foldl_marked]
    exact Or.inl hmem
  · rw [afterAll_patches]
    intro x hx
    obtain ⟨r, hr, rfl⟩ := List.mem_map.mp (hpatches ▸ hx)
    change r.patch.target ∈ (runOnStore p.done p.patches s).store.keys
    rw [runOnStore_keys]
    by_contra hn
    have hm := (runOnStore_missing_iff p.done p.patches s r hr).mpr hn
    rcases hstatus r hr with h | h
    · rw [hm] at h
      cases h
    · rw [hm] at h
      cases h

/-- What is not remembered is tried, if there is a body to try it on. -/
theorem apply_of_no_application {rounds : List Round} {round : Round}
    {before after : List PatchResult} {r : PatchResult}
    (h : ((p.afterAll rounds).answer round).2 = before ++ r :: after)
    (hdone : r.key ∉ p.done)
    (hn : ∀ q ∈ p.history rounds ++ before, q.key = r.key → q.applied = false)
    (hholds : round.Holds r.patch.target) : r = r.patch.apply r.before := by
  have hfaithful := answer_faithful (p.afterAll rounds) round
  rw [h, afterAll_done, faithful_append, ← List.foldl_append] at hfaithful
  have hmem : r.key ∉ (p.history rounds ++ before).foldl marked p.done := by
    rw [mem_foldl_marked]
    rintro (hd | ⟨q, hq, ha, hk⟩)
    · exact hdone hd
    · exact Bool.false_ne_true ((hn q hq hk).symm.trans ha)
  rcases hfaithful.2.1.of_not_mem hmem with hm | hr
  · have hin : r ∈ ((p.afterAll rounds).answer round).2 := by
      rw [h]
      exact List.mem_append_right _ List.mem_cons_self
    exact absurd hholds ((answer_missing_iff _ round r hin).mp hm)
  · exact hr

/-! ## The laws -/

/-- Over all rounds a patch is applied to a method at most once: no skip comes before it, and only
skips and missing methods come after it. A skip leaves the body as it is. As long as a patch was
not applied to its method, it is tried again in each round that has a body of the method. And after
a run on a store without failures, every later run on the store skips all patches and leaves the
store as it is, whatever was done elsewhere in between. -/
theorem no_patch_is_applied_to_a_method_twice (p : Patcher) (rounds : List Round) :
    (((p.history rounds).filter (·.applied)).map PatchResult.key).Nodup ∧
    ((p.history rounds).Pairwise fun q r => q.key = r.key →
      (q.applied = true → r.status = .alreadyApplied ∨ r.status = .methodMissing) ∧
      (r.applied = true → q.status ≠ .alreadyApplied)) ∧
    (∀ r ∈ p.history rounds, r.status = .alreadyApplied → r.patched = r.before) ∧
    (∀ round,
      let results := ((p.afterAll rounds).answer round).2
      results.map PatchResult.patch = p.patchesIn round ∧
      (∀ r ∈ results, r.status = .methodMissing ↔ ¬ round.Holds r.patch.target) ∧
      ∀ before r after, results = before ++ r :: after → r.key ∉ p.done →
        (∀ q ∈ p.history rounds ++ before, q.key = r.key → q.applied = false) →
        round.Holds r.patch.target → r = r.patch.apply r.before) ∧
    ∀ s more,
      let first := (p.afterAll rounds).applyAll s
      let later := (first.1.afterAll more).applyAll first.2.store
      (Report.mk first.2.results).ok = true →
        (Report.mk later.2.results).ok = true ∧
        (∀ r ∈ later.2.results, r.status = .alreadyApplied) ∧
        later.2.store = first.2.store := by
  have hfaithful := history_faithful p rounds
  refine ⟨hfaithful.nodup_applied, hfaithful.pairwise, ?_, ?_, ?_⟩
  · intro r _ hs
    exact patched_of_not_applied (applied_of_skipped (Or.inl hs))
  · intro round results
    refine ⟨?_, answer_missing_iff _ round, ?_⟩
    · exact (answer_patches _ round).trans (patchesIn_afterAll p rounds round)
    · intro before r after h hdone hn hholds
      exact apply_of_no_application h hdone hn hholds
  · intro s more first later hok
    have hskipped := applyAll_after_ok hok more
    refine ⟨ok_of_status hskipped, hskipped, ?_⟩
    exact runOnStore_unchanged _ _ _ fun r hr => applied_of_skipped (Or.inl (hskipped r hr))

/-- A patch that is first not found in a body and then applied to a store. It is not applied again,
on the store or on a body that it would match, and a store without the method is told so. -/
theorem a_patch_that_fails_and_is_tried_again :
    let nop : Instruction := ⟨.nop, none, [], [], rfl⟩
    let ret : Instruction := ⟨.ret, none, [], [], rfl⟩
    let m : Selector := ⟨"T", "m", []⟩
    let x : Patch := ⟨"drop", m, ⟨"nop", [.exact .nop none], by simp⟩, 0, 1, [], by simp,
      by decide⟩
    let p := ofPatches [x]
    let s : BodyStore := .ofList [(m, [nop, ret])]
    let elsewhere := [Round.onStore .empty, .onBody m [nop]]
    let run := (p.afterAll [.onBody m [ret]]).applyAll s
    let later := (run.1.afterAll elsewhere).applyAll run.2.store
    (p.history (.onBody m [ret] :: .onStore s :: elsewhere)).map PatchResult.status =
        [.patternNotFound, .applied, .methodMissing, .alreadyApplied] ∧
      run.2.results = [x.apply [nop, ret]] ∧
      later.2.store.find? m = some [ret] ∧ later.2.results.map PatchResult.patch = [x] ∧
      ∀ r ∈ later.2.results, r.status = .alreadyApplied := by
  intro nop ret m x p s elsewhere run later
  obtain ⟨_, _, _, hretry, hrest⟩ := no_patch_is_applied_to_a_method_twice p [.onBody m [ret]]
  -- Each run is computed only when every name in it is replaced by what it stands for.
  have hstatus : (p.history (.onBody m [ret] :: .onStore s :: elsewhere)).map PatchResult.status =
      [.patternNotFound, .applied, .methodMissing, .alreadyApplied] := by
    subst run later elsewhere s p x m ret nop
    rfl
  have hfailed : (p.history [.onBody m [ret]]).all (fun q => !q.applied) = true := by
    subst run later elsewhere s p x m ret nop
    rfl
  have hok : (Report.mk run.2.results).ok = true := by
    subst run later elsewhere s p x m ret nop
    rfl
  obtain ⟨r, hr, hpatch, hbefore⟩ :
      ∃ r, run.2.results = [r] ∧ r.patch = x ∧ r.before = [nop, ret] := ⟨_, rfl, rfl, rfl⟩
  have happly : r = r.patch.apply r.before := by
    refine (hretry (.onStore s)).2.2 [] r [] hr List.not_mem_nil ?_ ?_
    · intro q hq _
      rw [List.append_nil] at hq
      simpa using List.all_eq_true.mp hfailed q hq
    · rw [hpatch]
      exact List.mem_cons_self
  obtain ⟨_, hskipped, hstore⟩ := hrest s elsewhere hok
  refine ⟨hstatus, ?_, ?_, ?_, hskipped⟩
  · rw [hr, happly, hpatch, hbefore]
  · change later.2.store = run.2.store at hstore
    rw [hstore]
    subst run later elsewhere s p x m ret nop
    rfl
  · subst run later elsewhere s p x m ret nop
    rfl

end Patcher

end Peephole
