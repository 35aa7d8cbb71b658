-- The safety of patching. A host calls a patcher as often as it likes, on its store of
-- bodies or on one body. Closed bodies stay closed, also when one patch removes what
-- another has put in, and the markers of exception regions stay as they are.
import Peephole.Proofs.Body.Closed
import Peephole.Proofs.Patch.Outcomes
import Peephole.Proofs.Patcher.Relation

namespace Peephole

/-! ## Hosts -/

/-- What a host asks of its patcher. -/
inductive PatcherCall where
  | applyAll
  | patchBody (target : Selector) (b : Body)

/-- A patcher, the store it works on, and each body it was given with the one it gave back. -/
structure Host where
  patcher : Patcher
  store : BodyStore
  returned : List (Body × Body)

namespace Host

/-- The host after a call. -/
def after (h : Host) : PatcherCall → Host
  | .applyAll =>
    let (patcher, run) := h.patcher.applyAll h.store
    { h with patcher, store := run.store }
  | .patchBody target b =>
    let (patcher, run) := h.patcher.patchBody target b
    { h with patcher, returned := h.returned ++ [(b, run.body)] }

/-- The host after calls in order. -/
def run (h : Host) (calls : List PatcherCall) : Host := calls.foldl after h

theorem after_patches (h : Host) (call : PatcherCall) :
    (h.after call).patcher.patches = h.patcher.patches := by
  cases call <;> rfl

/-! ## What becomes of the bodies of a host -/

variable {R : Body → Body → Prop} {h : Host}

/-- The bodies of a host stand in a relation to those of a store at the start, and the bodies
given back to those that were given. -/
def Relates (R : Body → Body → Prop) (s : BodyStore) (h : Host) : Prop :=
  (∀ k, Option.Rel R (s.find? k) (h.store.find? k)) ∧ ∀ g ∈ h.returned, R g.1 g.2

theorem Relates.after {s : BodyStore} (hr : Relates R s h) (hrefl : ∀ b, R b b)
    (hkeep : ∀ x ∈ h.patcher.patches, Patcher.Keeps R x) (call : PatcherCall) :
    Relates R s (h.after call) := by
  obtain ⟨hstore, hreturned⟩ := hr
  cases call with
  | applyAll => exact ⟨fun k => Patcher.runOnStore_keeps hkeep _ hstore k, hreturned⟩
  | patchBody target b =>
    refine ⟨hstore, ?_⟩
    intro g hg
    rcases List.mem_append.mp hg with hg | hg
    · exact hreturned g hg
    · rw [List.mem_singleton] at hg
      subst hg
      have hsome : ∀ x ∈ h.patcher.patchesFor target, Patcher.Keeps R x :=
        fun x hx => hkeep x (List.mem_filter.mp hx).1
      exact Patcher.runOnBody_keeps hsome _ (hrefl b)

theorem Relates.run {s : BodyStore} (hr : Relates R s h) (hrefl : ∀ b, R b b)
    (hkeep : ∀ x ∈ h.patcher.patches, Patcher.Keeps R x) (calls : List PatcherCall) :
    Relates R s (h.run calls) := by
  -- What was applied changes from call to call, but the patches never do.
  induction calls generalizing h with
  | nil => exact hr
  | cons call rest ih => exact ih (hr.after hrefl hkeep call) (by rwa [after_patches])

theorem relates_start (hrefl : ∀ b, R b b) (p : Patcher) (s : BodyStore) :
    Relates R s ⟨p, s, []⟩ := by
  refine ⟨?_, by simp⟩
  intro k
  cases s.find? k with
  | none => exact .none
  | some b => exact .some (hrefl b)

theorem Relates.of_find? {s : BodyStore} (hr : Relates R s h) {k : Selector} {c : Body}
    (hc : h.store.find? k = some c) : ∃ b, s.find? k = some b ∧ R b c := by
  have hk := hr.1 k
  rw [hc] at hk
  generalize s.find? k = o at hk ⊢
  cases hk with
  | some hbc => exact ⟨_, rfl, hbc⟩

theorem Relates.map_find? {α : Type} {f : Body → α} {s : BodyStore} (hr : Relates R s h)
    (hf : ∀ b c, R b c → f c = f b) (k : Selector) :
    (h.store.find? k).map f = (s.find? k).map f := by
  have hk := hr.1 k
  generalize s.find? k = o, h.store.find? k = o' at hk ⊢
  cases hk with
  | none => rfl
  | some hbc => rw [Option.map_some, Option.map_some, hf _ _ hbc]

theorem run_returned (h : Host) (calls : List PatcherCall) :
    ∀ g ∈ (h.run calls).returned, g ∈ h.returned ∨ ∃ target, .patchBody target g.1 ∈ calls := by
  induction calls generalizing h with
  | nil => exact fun g hg => Or.inl hg
  | cons call rest ih =>
    intro g hg
    rcases ih (h.after call) g hg with hg | ⟨target, hc⟩
    · cases call with
      | applyAll => exact Or.inl hg
      | patchBody target b =>
        rcases List.mem_append.mp hg with hg | hg
        · exact Or.inl hg
        · rw [List.mem_singleton] at hg
          subst hg
          exact Or.inr ⟨target, List.mem_cons_self⟩
    · exact Or.inr ⟨target, List.mem_cons_of_mem _ hc⟩

end Host

/-! ## Two relations that patches keep -/

theorem Patch.keeps_closed {x : Patch} (hx : x.insert.Closed) :
    Patcher.Keeps (fun b c => b.Closed → c.Closed) x := by
  intro b c hc hb
  rcases x.patched_cases c with he | ⟨a, ha, hz, he⟩
  · rw [he]
    exact hc hb
  · rw [he]
    exact Body.closed_splice (by omega) hz (hc hb) hx

theorem Patch.keeps_markers {x : Patch} (hx : ∀ i ∈ x.insert, i.markers = []) :
    Patcher.Keeps (fun b c => c.allMarkers = b.allMarkers) x := by
  intro b c hc
  rcases x.patched_cases c with he | ⟨a, _, hz, he⟩
  · rw [he]
    exact hc
  · rw [he, Body.allMarkers_splice hz hx]
    exact hc

/-! ## The laws -/

/-- When the bodies of the store, the insertions of the patches and the bodies given to the
patcher are closed, so are the bodies of the store and those given back, after any calls in any
order. When moreover no insertion has a marker, each body has the markers it had. -/
theorem patching_keeps_bodies_closed (p : Patcher) (s : BodyStore) (calls : List PatcherCall)
    (hstore : ∀ k b, s.find? k = some b → b.Closed)
    (hinsert : ∀ x ∈ p.patches, x.insert.Closed)
    (hgiven : ∀ target b, .patchBody target b ∈ calls → b.Closed) :
    (∀ k b, (Host.run ⟨p, s, []⟩ calls).store.find? k = some b → b.Closed) ∧
    (∀ g ∈ (Host.run ⟨p, s, []⟩ calls).returned, g.2.Closed) ∧
    ((∀ x ∈ p.patches, ∀ i ∈ x.insert, i.markers = []) →
      (∀ k, ((Host.run ⟨p, s, []⟩ calls).store.find? k).map Body.allMarkers =
        (s.find? k).map Body.allMarkers) ∧
      ∀ g ∈ (Host.run ⟨p, s, []⟩ calls).returned, g.2.allMarkers = g.1.allMarkers) := by
  have hclosed := (Host.relates_start (fun b => id) p s).run (fun b => id)
    (fun x hx => Patch.keeps_closed (hinsert x hx)) calls
  refine ⟨?_, ?_, ?_⟩
  · intro k c hc
    obtain ⟨b, hb, hbc⟩ := hclosed.of_find? hc
    exact hbc (hstore k b hb)
  · intro g hg
    rcases Host.run_returned ⟨p, s, []⟩ calls g hg with hn | ⟨target, hc⟩
    · cases hn
    · exact hclosed.2 g hg (hgiven target g.1 hc)
  · intro hmarkers
    have hsame := (Host.relates_start (R := fun b c => c.allMarkers = b.allMarkers)
      (fun b => rfl) p s).run (fun b => rfl)
      (fun x hx => Patch.keeps_markers (hmarkers x hx)) calls
    exact ⟨hsame.map_find? fun b c hbc => hbc, hsame.2⟩

/-- Two patches on a body with a branch and an exception region: the first puts a branch and its
target in, and the second removes both. -/
theorem a_patch_removes_what_another_put_in :
    let nop : Instruction := ⟨.nop, none, [], [], rfl⟩
    let jump (l : Nat) : Instruction := ⟨.brS, some (.label ⟨l⟩), [], [], rfl⟩
    let ret (l : Nat) (ms : List Marker) : Instruction := ⟨.ret, none, [⟨l⟩], ms, rfl⟩
    let m : Selector := ⟨"T", "m", []⟩
    let first : Patch := ⟨"first", m, ⟨"nop", [.exact .nop none], by simp⟩, 0, 1,
      [jump 7, ret 7 []], by simp, by decide⟩
    let second : Patch := ⟨"second", m,
      ⟨"jump", [.exact .brS (some (.label ⟨7⟩)), .exact .ret none], by simp⟩, 0, 2, [nop, nop],
      by simp, by decide⟩
    let b : Body := [jump 1, nop, ret 1 [⟨.regionEnd, .null⟩]]
    let h := Host.run ⟨.ofPatches [first, second], .ofList [(m, b)], []⟩
      [.applyAll, .patchBody m b, .applyAll]
    h.store.find? m = some [jump 1, nop, nop, ret 1 [⟨.regionEnd, .null⟩]] ∧
      (∀ k c, h.store.find? k = some c → c.Closed) ∧
      (h.store.find? m).map Body.allMarkers = some [⟨.regionEnd, .null⟩] := by
  intro nop jump ret m first second b h
  have hstore : ∀ k (c : Body), (OrderedMap.ofList [(m, b)]).find? k = some c → c.Closed := by
    intro k c hc
    rw [OrderedMap.ofList, OrderedMap.insertAll, List.foldl_cons, List.foldl_nil,
      OrderedMap.find?_insert] at hc
    split at hc
    · cases hc
      decide
    · cases hc
  have hgiven : ∀ target (c : Body),
      .patchBody target c ∈ [PatcherCall.applyAll, .patchBody m b, .applyAll] → c.Closed := by
    intro target c hc
    rcases List.mem_cons.mp hc with hc | hc
    · cases hc
    · rcases List.mem_cons.mp hc with hc | hc
      · cases hc
        decide
      · simp at hc
  obtain ⟨hclosed, _, hmarkers⟩ :=
    patching_keeps_bodies_closed (.ofPatches [first, second]) _ _ hstore (by decide) hgiven
  have hsame := (hmarkers (by decide)).1 m
  have hbody : h.store.find? m = some [jump 1, nop, nop, ret 1 [⟨.regionEnd, .null⟩]] := by
    -- The run is computed only when every name in it is replaced by what it stands for.
    subst h b second first m ret jump nop
    rfl
  exact ⟨hbody, hclosed, hsame.trans rfl⟩

end Peephole
