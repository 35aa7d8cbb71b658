-- Methods apart. It is all the same whether a patcher is given the whole store or one body, in
-- which order it is given the bodies, and how the patches of different methods are mixed.
import Peephole.Proofs.Data.Reordering
import Peephole.Proofs.Patcher.Targets

namespace Peephole.Patcher

variable {p : Patcher} {s : BodyStore} {j k : Selector} {b c : Body}

/-! ## One method after another -/

theorem patchBody_patches (p : Patcher) (k : Selector) (b : Body) :
    (p.patchBody k b).2.results.map PatchResult.patch = p.patchesFor k :=
  runOnBody_patches p.done (p.patchesFor k) b

theorem patchBody_done (p : Patcher) (k : Selector) (b : Body) :
    (p.patchBody k b).1.done = (p.patchBody k b).2.results.foldl marked p.done :=
  runOnBody_done p.done (p.patchesFor k) b

theorem patchBody_targets (p : Patcher) (k : Selector) (b : Body) :
    ∀ r ∈ (p.patchBody k b).2.results, r.patch.target = k := by
  intro r hr
  have hx : r.patch ∈ p.patchesFor k := by
    rw [← patchBody_patches p k b]
    exact List.mem_map_of_mem hr
  exact beq_iff_eq.mp (List.mem_filter.mp hx).2

/-- What a patcher does to a body is the same before and after it has been given a body of another
method. -/
theorem patchBody_after_other (h : j ≠ k) :
    ((p.patchBody j c).1.patchBody k b).2.body = (p.patchBody k b).2.body ∧
      ((p.patchBody j c).1.patchBody k b).2.results = (p.patchBody k b).2.results := by
  -- The other body adds to the memory, but nothing that counts for this method.
  have hsame : SameOn k p.done (p.patchBody j c).1.done := by
    rw [patchBody_done]
    refine SameOn.foldl_marked_right ?_
    intro r hr hk
    exact h ((patchBody_targets p j c r hr).symm.trans hk)
  have htargets : ∀ x ∈ p.patchesFor k, x.target = k :=
    fun x hx => beq_iff_eq.mp (List.mem_filter.mp hx).2
  obtain ⟨hbody, hresults⟩ := runOnBody_congr (b := b) htargets hsame
  exact ⟨hbody.symm, hresults.symm⟩

/-- What a patcher remembers of two bodies of different methods does not depend on their order. -/
theorem mem_done_patchBody_patchBody (h : j ≠ k) (e : String × Selector) :
    e ∈ ((p.patchBody j c).1.patchBody k b).1.done ↔
      e ∈ p.done ∨ (∃ r ∈ (p.patchBody j c).2.results, r.applied = true ∧ r.key = e) ∨
        ∃ r ∈ (p.patchBody k b).2.results, r.applied = true ∧ r.key = e := by
  rw [patchBody_done, (patchBody_after_other h).2, mem_foldl_marked, patchBody_done,
    mem_foldl_marked, or_assoc]

/-! ## Patches in another order -/

variable {xs ys : List Patch}

theorem find?_runOnStore_reordered (σ : Reordering Patch.target xs ys)
    (done : List (String × Selector)) (s : BodyStore) (k : Selector) :
    (runOnStore done ys s).store.find? k = (runOnStore done xs s).store.find? k ∧
      resultsFor k (runOnStore done ys s).results =
        resultsFor k (runOnStore done xs s).results := by
  cases hs : s.find? k with
  | none =>
    obtain ⟨hfind, hresults⟩ := runOnStore_at_unbound done xs hs
    obtain ⟨hfind', hresults'⟩ := runOnStore_at_unbound done ys hs
    rw [hfind, hfind', hresults, hresults', σ.filter_eq]
    exact ⟨rfl, rfl⟩
  | some b =>
    obtain ⟨hfind, hresults⟩ := runOnStore_at xs (SameOn.refl k done) hs
    obtain ⟨hfind', hresults'⟩ := runOnStore_at ys (SameOn.refl k done) hs
    rw [hfind, hfind', hresults, hresults', σ.filter_eq]
    exact ⟨rfl, rfl⟩

theorem runOnStore_reordered (σ : Reordering Patch.target xs ys)
    (done : List (String × Selector)) (s : BodyStore) :
    (runOnStore done ys s).store = (runOnStore done xs s).store := by
  refine OrderedMap.ext_find? ?_ fun k => (find?_runOnStore_reordered σ done s k).1
  rw [runOnStore_keys, runOnStore_keys]

/-! ## The laws -/

/-- A run on a store does to each of its bodies what a run on this body alone does, with the same
results. Of two bodies of different methods it does not matter which is patched first. And when the
patches are reordered, but not those of one method, the store after a run is the same, and each
patch has the same result. -/
theorem methods_do_not_meddle_with_each_other (p : Patcher) (s : BodyStore) :
    (∀ k b, s.find? k = some b →
      (p.applyAll s).2.store.find? k = some (p.patchBody k b).2.body ∧
      resultsFor k (p.applyAll s).2.results = (p.patchBody k b).2.results) ∧
    (∀ j k c b, j ≠ k →
      let j₁ := p.patchBody j c
      let k₂ := j₁.1.patchBody k b
      let k₁ := p.patchBody k b
      let j₂ := k₁.1.patchBody j c
      j₁.2.body = j₂.2.body ∧ j₁.2.results = j₂.2.results ∧
        k₁.2.body = k₂.2.body ∧ k₁.2.results = k₂.2.results ∧
        ∀ e, e ∈ k₂.1.done ↔ e ∈ j₂.1.done) ∧
    ∀ ys, ∀ σ : Reordering Patch.target p.patches ys,
      let run := ({ p with patches := ys }.applyAll s).2
      run.store = (p.applyAll s).2.store ∧
      ∀ i : Fin ys.length, ∃ r, run.results[(i : Nat)]? = some r ∧
        (p.applyAll s).2.results[(σ.source i : Nat)]? = some r := by
  refine ⟨?_, ?_, ?_⟩
  · intro k b hb
    exact runOnStore_at p.patches (SameOn.refl k p.done) hb
  · intro j k c b h
    obtain ⟨hjbody, hjresults⟩ := patchBody_after_other (p := p) (b := c) (c := b) h.symm
    obtain ⟨hkbody, hkresults⟩ := patchBody_after_other (p := p) (b := b) (c := c) h
    refine ⟨hjbody.symm, hjresults.symm, hkbody.symm, hkresults.symm, ?_⟩
    intro e
    rw [mem_done_patchBody_patchBody h, mem_done_patchBody_patchBody h.symm]
    exact or_congr_right or_comm
  · intro ys σ run
    refine ⟨runOnStore_reordered σ p.done s, ?_⟩
    exact σ.get_eq_of_filter_eq (runOnStore_patches p.done p.patches s)
      (runOnStore_patches p.done ys s) fun k => (find?_runOnStore_reordered σ p.done s k).2

/-- Three patches of two methods: the one in the middle may come first. The second patch of the
method of two finds what the first has put in, on the store and on the body alone. -/
theorem two_methods_patched_in_turn :
    let nop : Instruction := ⟨.nop, none, [], [], rfl⟩
    let pop : Instruction := ⟨.pop, none, [], [], rfl⟩
    let ret : Instruction := ⟨.ret, none, [], [], rfl⟩
    let m : Selector := ⟨"T", "m", []⟩
    let other : Selector := ⟨"T", "other", []⟩
    let first : Patch := ⟨"first", m, ⟨"nop", [.exact .nop none], by simp⟩, 0, 1, [pop, pop],
      by simp, by decide⟩
    let between : Patch := ⟨"between", other, ⟨"ret", [.exact .ret none], by simp⟩, 0, 1, [],
      by simp, by decide⟩
    let second : Patch := ⟨"second", m, ⟨"pop", [.exact .pop none], by simp⟩, 1, 0, [nop],
      by simp, by decide⟩
    let p := ofPatches [first, between, second]
    let s : BodyStore := .ofList [(m, [nop, ret]), (other, [ret])]
    let run := (p.applyAll s).2
    let run' := ((ofPatches [between, first, second]).applyAll s).2
    run.store.find? m = some [pop, nop, pop, ret] ∧
      (p.patchBody m [nop, ret]).2.body = [pop, nop, pop, ret] ∧
      ((p.patchBody other [ret]).1.patchBody m [nop, ret]).2.body = [pop, nop, pop, ret] ∧
      run'.store = run.store ∧ run'.results[0]? = run.results[1]? := by
  intro nop pop ret m other first between second p s run run'
  let σ : Reordering Patch.target p.patches [between, first, second] :=
    { source := Equiv.swap (0 : Fin 3) 1
      get_eq := fun (i : Fin 3) => match i with
        | 0 => rfl
        | 1 => rfl
        | 2 => rfl
      ordered := by decide }
  obtain ⟨hagree, hcommute, hreorder⟩ := methods_do_not_meddle_with_each_other p s
  have hm : run.store.find? m = some [pop, nop, pop, ret] := by
    -- The run is computed only when every name in it is replaced by what it stands for.
    subst run' run s p second between first other m ret pop nop
    rfl
  have hbody : (p.patchBody m [nop, ret]).2.body = [pop, nop, pop, ret] :=
    Option.some.inj ((hagree m [nop, ret] rfl).1.symm.trans hm)
  have hne : other ≠ m := by decide
  refine ⟨hm, hbody, ?_, (hreorder _ σ).1, ?_⟩
  · rw [← (hcommute other m [ret] [nop, ret] hne).2.2.1]
    exact hbody
  · obtain ⟨r, hr, hr'⟩ := (hreorder _ σ).2 (0 : Fin 3)
    exact hr.trans hr'.symm

end Peephole.Patcher
