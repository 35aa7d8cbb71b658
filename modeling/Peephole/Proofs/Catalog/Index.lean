-- How a catalogue is kept: its patches in a list, and an index that has the patch of a name. Calls
-- that add one patch or several leave the two in step, also when they are refused half way, and
-- the patches that are there stay in order before those that are added.
import Peephole.Proofs.Catalog.Merging
import Peephole.Proofs.Data.Additions
import Peephole.Proofs.Data.Keys

namespace Peephole.Catalog

open Addition

variable {c d : Catalog} {p : Patch} {ps : List Patch} {f : Fault}

/-! ## One patch and several -/

theorem add_eq_error (h : c.add p = .error f) :
    p.name ∈ c.names ∧ f = .value (.duplicatePatch p.name) := by
  unfold add at h
  split at h
  · rename_i hmem
    cases h
    exact ⟨hmem, rfl⟩
  · cases h

theorem add_of_mem (h : p.name ∈ c.names) :
    c.add p = .error (.value (.duplicatePatch p.name)) := by
  unfold add
  exact dif_pos h

theorem not_mem_of_add (h : c.add p = .ok d) : p.name ∉ c.names := by
  intro hmem
  rw [add_of_mem hmem] at h
  cases h

theorem addAll_eq_upTo (c : Catalog) (ps : List Patch) : c.addAll ps = upTo add c ps := by
  refine eq_upTo (fun _ => rfl) (fun c p ps => ?_) c ps
  rw [addAll]
  cases c.add p <;> rfl

/-- Patches are all added in a fallible run when they are added without a fault. -/
theorem extend_eq_ok_iff : c.extend ps = .ok d ↔ upTo add c ps = (d, none) := by
  unfold extend
  rw [foldlM_eq_upTo]
  rcases upTo add c ps with ⟨e, _ | f⟩ <;> simp

theorem upTo_eq_none (h : upTo add c ps = (d, none)) :
    d.patches = c.patches ++ ps ∧ d.rejected = c.rejected :=
  extend_eq_ok (extend_eq_ok_iff.mpr h)

theorem names_of_upTo (h : upTo add c ps = (d, none)) :
    d.names = c.names ++ ps.map Patch.name := by
  unfold names
  rw [(upTo_eq_none h).1, List.map_append]

/-- The first patch that is refused has the name of one before it. -/
theorem upTo_eq_fault (h : upTo add c ps = (d, some f)) :
    ∃ before p rest, ps = before ++ p :: rest ∧ (c.names ++ before.map Patch.name).Nodup ∧
      p.name ∈ c.names ++ before.map Patch.name ∧ f = .value (.duplicatePatch p.name) ∧
      d.patches = c.patches ++ before ∧ d.rejected = c.rejected := by
  obtain ⟨before, p, rest, rfl, hbefore, hp⟩ := upTo_eq_some h
  obtain ⟨hname, rfl⟩ := add_eq_error hp
  obtain ⟨hpatches, hrejected⟩ := upTo_eq_none hbefore
  have hnames := names_of_upTo hbefore
  exact ⟨before, p, rest, rfl, hnames ▸ d.distinct, hnames ▸ hname, rfl, hpatches, hrejected⟩

/-- Patches are all added exactly when no name comes twice, the catalogue counted. -/
theorem fault_eq_none_iff :
    (upTo add c ps).2 = none ↔ (c.names ++ ps.map Patch.name).Nodup := by
  rcases h : upTo add c ps with ⟨d, _ | f⟩
  · refine iff_of_true rfl ?_
    rw [← names_of_upTo h]
    exact d.distinct
  · obtain ⟨before, p, rest, rfl, -, hname, -⟩ := upTo_eq_fault h
    refine iff_of_false (Option.some_ne_none f) ?_
    rw [List.map_append, List.map_cons, ← List.append_assoc, List.nodup_append]
    rintro ⟨-, -, hapart⟩
    exact hapart _ hname _ List.mem_cons_self rfl

/-! ## A list and an index -/

/-- A catalogue in parts: its patches, and an index of them by their names. -/
structure Indexed where
  listed : List Patch
  index : OrderedMap String Patch
  rejected : List Json

namespace Indexed

/-- No two patches that are listed have one name, and the index has each of them under its name and
nothing else. -/
structure Sound (r : Indexed) : Prop where
  distinct : (r.listed.map Patch.name).Nodup
  found_iff : ∀ n p, r.index.find? n = some p ↔ p ∈ r.listed ∧ p.name = n
  counted : r.index.size = r.listed.length

/-- The parts of a catalogue. -/
def of (c : Catalog) : Indexed where
  listed := c.patches
  index := ⟨c.patches.map fun p => (p.name, p), by
    rw [List.map_map]
    exact c.distinct⟩
  rejected := c.rejected

theorem find?_index_of {n : String} :
    (of c).index.find? n = some p ↔ p ∈ c.patches ∧ p.name = n := by
  rw [OrderedMap.find?_eq_some_iff]
  simp only [of, List.mem_map, Prod.mk.injEq]
  constructor
  · rintro ⟨q, hq, hn, rfl⟩
    exact ⟨hq, hn⟩
  · rintro ⟨hp, hn⟩
    exact ⟨p, hp, hn, rfl⟩

theorem sound_of (c : Catalog) : (of c).Sound where
  distinct := c.distinct
  found_iff _ _ := find?_index_of
  counted := List.length_map _

theorem find?_index (c : Catalog) (n : String) : (of c).index.find? n = c.byName? n := by
  cases hname : c.byName? n with
  | none =>
    rw [Option.eq_none_iff_forall_ne_some]
    intro p hp
    obtain ⟨hmem, rfl⟩ := find?_index_of.mp hp
    exact absurd (beq_self_eq_true _) (List.find?_eq_none.mp hname p hmem)
  | some p =>
    have hfind : c.patches.find? (fun q => q.name == n) = some p := hname
    refine find?_index_of.mpr ⟨List.mem_of_find?_eq_some hfind, ?_⟩
    simpa using List.find?_some hfind

theorem keys_index (c : Catalog) : (of c).index.keys = c.names := by
  unfold of OrderedMap.keys names
  rw [List.map_map]
  rfl

/-- The parts of a catalogue to which a patch has been added. -/
theorem of_add (h : c.add p = .ok d) :
    of d = ⟨(of c).listed ++ [p], (of c).index.insert p.name p, (of c).rejected⟩ := by
  obtain ⟨hpatches, hrejected⟩ := add_eq_ok h
  have hnew : p.name ∉ (of c).index.keys := by
    rw [keys_index]
    exact not_mem_of_add h
  have hindex : (of d).index = (of c).index.insert p.name p := by
    apply OrderedMap.ext
    rw [OrderedMap.entries_insert_of_not_mem hnew]
    simp [of, hpatches]
  rw [← hindex]
  simp [of, hpatches, hrejected]

/-! ## In place -/

/-- Adds a patch to a catalogue that is changed in place, to the list and then to the index. -/
def addInPlace (p : Patch) : InPlace Indexed Fault Unit := do
  let r ← get
  if r.index.contains p.name then
    throw (.value (.duplicatePatch p.name))
  modify fun r => { r with listed := r.listed ++ [p] }
  modify fun r => { r with index := r.index.insert p.name p }

theorem addInPlace_implements : Implements of add addInPlace := by
  intro c p
  unfold addInPlace
  rw [InPlace.outcome_get]
  cases hadd : c.add p with
  | ok d =>
    have hnew : (of c).index.contains p.name = false := by
      rw [← Bool.not_eq_true, OrderedMap.contains_iff, keys_index]
      exact not_mem_of_add hadd
    simp only [hnew, of_add hadd]
    exact InPlace.outcome_bind _ _ _
  | error f =>
    obtain ⟨hmem, rfl⟩ := add_eq_error hadd
    have hthere : (of c).index.contains p.name = true := by
      rw [OrderedMap.contains_iff, keys_index]
      exact hmem
    simp only [hthere]
    exact InPlace.outcome_throw _ _

end Indexed

/-! ## The laws -/

theorem byName?_eq_some_iff {n : String} : c.byName? n = some p ↔ p ∈ c.patches ∧ p.name = n := by
  rw [← Indexed.find?_index, Indexed.find?_index_of]

/-- Calls leave a catalogue of the patches that were there and, behind them, those taken. -/
theorem run_parts (c : Catalog) (calls : List (Addition Patch)) :
    (run add c calls).patches = c.patches ++ takenIn add c calls ∧
      (run add c calls).rejected = c.rejected :=
  upTo_eq_none (upTo_takenIn c calls)

/-- Names stay distinct and the list and the index of a catalogue stay in step, whatever is added
and whether or not it is refused, and patches keep their places. A patch of a name that is there is
refused and changes nothing. Several patches are all taken exactly when no name comes twice, the
catalogue counted; otherwise those before the first with a name that is there by then are taken. -/
theorem a_catalogue_stays_in_step (c : Catalog) (calls : List (Addition Patch)) :
    let d := run add c calls
    (runInPlace Indexed.addInPlace (.of c) calls = .of d ∧
      runInPlace Indexed.addInPlace ⟨[], .empty, []⟩ calls = .of (run add empty calls) ∧
      (∀ x, (x.inPlace Indexed.addInPlace).outcome (.of d) =
        (.of (perform add d x).1, (perform add d x).2)) ∧
      (Indexed.of d).Sound) ∧
    (d.names.Nodup ∧ (∀ n, (Indexed.of d).index.find? n = d.byName? n) ∧
      ∀ n p, d.byName? n = some p ↔ p ∈ d.patches ∧ p.name = n) ∧
    (d.patches = c.patches ++ takenIn add c calls ∧
      d.size = c.size + (takenIn add c calls).length ∧ d.rejected = c.rejected) ∧
    (∀ p, p.name ∈ d.names →
      perform add d (one p) = (d, some (.value (.duplicatePatch p.name)))) ∧
    (∀ p, p.name ∉ d.names →
      ∃ e, perform add d (one p) = (e, none) ∧ e.patches = d.patches ++ [p]) ∧
    (∀ ps, perform add d (several ps) = d.addAll ps ∧
      ∀ e, d.extend ps = .ok e ↔ d.addAll ps = (e, none)) ∧
    (∀ ps, (perform add d (several ps)).2 = none ↔ (d.names ++ ps.map Patch.name).Nodup) ∧
    (∀ ps e, perform add d (several ps) = (e, none) → e.patches = d.patches ++ ps) ∧
    (∀ ps e f, perform add d (several ps) = (e, some f) →
      ∃ before p rest, ps = before ++ p :: rest ∧ (d.names ++ before.map Patch.name).Nodup ∧
        p.name ∈ d.names ++ before.map Patch.name ∧ f = .value (.duplicatePatch p.name) ∧
        e.patches = d.patches ++ before) := by
  intro d
  obtain ⟨hpatches, hrejected⟩ := run_parts c calls
  refine ⟨⟨?_, ?_, ?_, ?_⟩, ⟨d.distinct, ?_, ?_⟩, ⟨hpatches, ?_, hrejected⟩, ?_, ?_, ?_, ?_, ?_, ?_⟩
  · exact runInPlace_eq Indexed.addInPlace_implements c calls
  · exact runInPlace_eq Indexed.addInPlace_implements empty calls
  · exact outcome_inPlace Indexed.addInPlace_implements d
  · exact Indexed.sound_of d
  · exact Indexed.find?_index d
  · intro n p
    exact byName?_eq_some_iff
  · unfold size
    rw [hpatches, List.length_append]
  · intro p hp
    exact upTo_cons_of_error (add_of_mem hp) []
  · intro p hp
    obtain ⟨e, hadd, hparts, -⟩ := add_of_not_mem hp
    exact ⟨e, upTo_cons_of_ok hadd [], hparts⟩
  · intro ps
    refine ⟨(addAll_eq_upTo d ps).symm, ?_⟩
    intro e
    rw [addAll_eq_upTo, extend_eq_ok_iff]
  · intro ps
    exact fault_eq_none_iff
  · intro ps e hall
    exact (upTo_eq_none hall).1
  · intro ps e f hfault
    obtain ⟨before, p, rest, hps, hbefore, hp, hf, hparts, -⟩ := upTo_eq_fault hfault
    exact ⟨before, p, rest, hps, hbefore, hp, hf, hparts⟩

/-- A patch with the name of another keeps out those that are added behind it, until they are added
without it. -/
theorem a_name_that_comes_twice :
    let nop : Pattern := ⟨"nop", [.exact .nop none], by simp⟩
    let first : Patch := ⟨"first", ⟨"T", "m", []⟩, nop, 0, 1, [], by simp, by decide⟩
    let again : Patch := ⟨"first", ⟨"T", "m", []⟩, nop, 1, 0, [], by simp, by decide⟩
    let last : Patch := ⟨"last", ⟨"T", "m", []⟩, nop, 1, 0, [], by simp, by decide⟩
    let calls := [several [first, again, last], one again, one last]
    (run add empty calls).patches = [first, last] ∧
      (run add empty calls).byName? "first" = some first ∧
      perform add (run add empty calls) (one again) =
        (run add empty calls, some (.value (.duplicatePatch "first"))) := by
  intro nop first again last calls
  obtain ⟨-, ⟨-, -, hnamed⟩, ⟨hparts, -⟩, hthere, -⟩ := a_catalogue_stays_in_step empty calls
  have hpatches : (run add empty calls).patches = [first, last] := by
    rw [hparts]
    rfl
  refine ⟨hpatches, ?_, hthere again ?_⟩
  · rw [hnamed, hpatches]
    exact ⟨List.mem_cons_self, rfl⟩
  · unfold names
    rw [hpatches]
    exact List.mem_cons_self

end Peephole.Catalog
