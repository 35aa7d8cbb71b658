-- Branches, and the tables of branches and labels. An instruction goes to a label exactly when its
-- opcode is a branch, so the table of branches misses none. Both tables are what one pass over the
-- body gathers, whatever labels come again on the way.
import Mathlib.Data.List.Induction
import Peephole.Proofs.Body.Tables
import Peephole.Proofs.Data.Keys
import Peephole.Proofs.Instruction.Operands

namespace Peephole

/-! ## Branches -/

/-- The opcodes that send control to a label are those that take one. -/
theorem Opcode.isBranch_iff (op : Opcode) : op.isBranch = true ↔ op.shape = .label := by
  revert op
  decide

theorem Opcode.shape_of_check_label {op : Opcode} {l : Label}
    (h : op.check (some (.label l)) = .ok ()) : op.shape = .label := by
  have hfits := (check_some_eq_ok_iff.mp h).1
  cases hshape : op.shape with
  | label => rfl
  | _ =>
    rw [hshape] at hfits
    cases hfits

/-- A branch has a target, and nothing else has one. -/
theorem Instruction.branchTarget?_isSome_iff (i : Instruction) :
    (∃ l, i.branchTarget? = some l) ↔ i.isBranch = true := by
  unfold isBranch
  rw [Opcode.isBranch_iff]
  simp only [branchTarget?_eq_some_iff]
  constructor
  · rintro ⟨l, hl⟩
    have haccepted := i.accepted
    rw [hl] at haccepted
    exact Opcode.shape_of_check_label haccepted
  · exact operand_of_branch

namespace Body

variable {b : Body} {k : Nat} {l : Label}

/-! ## The table of branches -/

theorem mem_targets : l ∈ b.targets ↔ ∃ k, b.BranchesTo k l := by
  unfold targets sorted BranchesTo
  rw [List.mem_mergeSort, List.mem_eraseDups, List.mem_filterMap]
  constructor
  · rintro ⟨i, hi, hl⟩
    obtain ⟨k, hk⟩ := List.mem_iff_getElem?.mp hi
    exact ⟨k, i, hk, hl⟩
  · rintro ⟨k, i, hk, hl⟩
    exact ⟨i, List.mem_of_getElem? hk, hl⟩

theorem nodup_sorted (ls : List Label) : (sorted ls).Nodup :=
  List.nodup_mergeSort.mpr (nodup_eraseDups ls)

theorem sources_eq_nil_iff : b.sources l = [] ↔ l ∉ b.targets := by
  rw [mem_targets, List.eq_nil_iff_forall_not_mem, not_exists]
  simp only [mem_sources]

theorem sources_increasing (b : Body) (l : Label) : (b.sources l).Pairwise (· < ·) :=
  indicesWhere_increasing b _

theorem nodup_sources (b : Body) (l : Label) : (b.sources l).Nodup :=
  (sources_increasing b l).imp fun h => Nat.ne_of_lt h

/-- A branch goes to one label. -/
theorem BranchesTo.unique {m : Label} (hl : b.BranchesTo k l) (hm : b.BranchesTo k m) :
    l = m := by
  obtain ⟨i, hi, hl⟩ := hl
  obtain ⟨j, hj, hm⟩ := hm
  rw [hi, Option.some.injEq] at hj
  subst hj
  rw [hl, Option.some.injEq] at hm
  exact hm

theorem exists_branchesTo_iff :
    (∃ l, b.BranchesTo k l) ↔ k ∈ b.indicesWhere Instruction.isBranch := by
  rw [mem_indicesWhere]
  simp only [← Instruction.branchTarget?_isSome_iff]
  constructor
  · rintro ⟨l, i, hi, hl⟩
    exact ⟨i, hi, l, hl⟩
  · rintro ⟨i, hi, l, hl⟩
    exact ⟨l, i, hi, hl⟩

theorem keys_branchSources (b : Body) : b.branchSources.map Prod.fst = b.targets := by
  unfold branchSources
  rw [List.map_map]
  exact List.map_id _

theorem lookup_branchSources (b : Body) (l : Label) :
    b.branchSources.lookup l = if b.sources l = [] then none else some (b.sources l) := by
  have hkeys : (b.branchSources.map Prod.fst).Nodup := by
    rw [keys_branchSources]
    exact nodup_sorted _
  by_cases hl : b.sources l = []
  · have hnot : l ∉ b.branchSources.map Prod.fst := by
      rw [keys_branchSources]
      exact sources_eq_nil_iff.mp hl
    rw [if_pos hl, ← Option.not_isSome_iff_eq_none, OrderedMap.lookup_isSome_iff]
    exact hnot
  · have hmem : l ∈ b.targets := by
      by_contra hnot
      exact hl (sources_eq_nil_iff.mpr hnot)
    rw [if_neg hl, OrderedMap.lookup_eq_some_iff hkeys]
    exact List.mem_map.mpr ⟨l, hmem, rfl⟩

/-- What the table of the branches of a body says: under each target the indices of the branches
that go to it, in order, and together the indices of all branches, each once. -/
structure IsTableOfBranches (b : Body) (t : List (Label × List Nat)) : Prop where
  keys_nodup : (t.map Prod.fst).Nodup
  complete : (t.flatMap Prod.snd).Perm (b.indicesWhere Instruction.isBranch)
  mem_iff : ∀ e ∈ t, ∀ k, k ∈ e.2 ↔ b.BranchesTo k e.1
  increasing : ∀ e ∈ t, e.2.Pairwise (· < ·)
  ne_nil : ∀ e ∈ t, e.2 ≠ []

theorem flatMap_branchSources (b : Body) :
    b.branchSources.flatMap Prod.snd = b.targets.flatMap b.sources := by
  unfold branchSources
  rw [List.flatMap_map]

/-- All lists together hold each branch once, since a branch has one target. -/
theorem flatMap_sources_perm (b : Body) :
    (b.targets.flatMap b.sources).Perm (b.indicesWhere Instruction.isBranch) := by
  have hlists : (b.targets.flatMap b.sources).Nodup := by
    refine List.nodup_flatMap.mpr ⟨fun l _ => nodup_sources b l, ?_⟩
    refine (nodup_sorted _).imp ?_
    intro l m hne k hl hm
    exact hne ((mem_sources.mp hl).unique (mem_sources.mp hm))
  have hall : (b.indicesWhere Instruction.isBranch).Nodup :=
    (indicesWhere_increasing b _).imp fun h => Nat.ne_of_lt h
  rw [List.perm_ext_iff_of_nodup hlists hall]
  intro k
  rw [← exists_branchesTo_iff, List.mem_flatMap]
  constructor
  · rintro ⟨l, _, hk⟩
    exact ⟨l, mem_sources.mp hk⟩
  · rintro ⟨l, hk⟩
    exact ⟨l, mem_targets.mpr ⟨k, hk⟩, mem_sources.mpr hk⟩

theorem branchSources_isTable (b : Body) : b.IsTableOfBranches b.branchSources where
  keys_nodup := by
    rw [keys_branchSources]
    exact nodup_sorted _
  complete := by
    rw [flatMap_branchSources]
    exact flatMap_sources_perm b
  mem_iff := by
    intro e he k
    obtain ⟨l, _, rfl⟩ := List.mem_map.mp he
    exact mem_sources
  increasing := by
    intro e he
    obtain ⟨l, _, rfl⟩ := List.mem_map.mp he
    exact sources_increasing b l
  ne_nil := by
    intro e he
    obtain ⟨l, hl, rfl⟩ := List.mem_map.mp he
    exact fun hnil => sources_eq_nil_iff.mp hnil hl

/-! ## The table of labels -/

theorem mem_carriers : k ∈ b.carriers l ↔ b.Carries k l := by
  unfold carriers Carries
  rw [mem_indicesWhere]
  simp only [List.contains_iff_mem]

/-- A label stands at the greatest index that carries it. -/
theorem position?_eq_some_iff :
    b.position? l = some k ↔ b.Carries k l ∧ ∀ j, b.Carries j l → j ≤ k := by
  have hincreasing : (b.carriers l).Pairwise (· < ·) := indicesWhere_increasing b _
  simp only [← mem_carriers]
  unfold position?
  constructor
  · intro h
    obtain ⟨before, hbefore⟩ := List.getLast?_eq_some_iff.mp h
    rw [hbefore] at hincreasing ⊢
    refine ⟨by simp, ?_⟩
    intro j hj
    rcases List.mem_append.mp hj with hj | hj
    · exact Nat.le_of_lt ((List.pairwise_append.mp hincreasing).2.2 j hj k (by simp))
    · exact Nat.le_of_eq (List.mem_singleton.mp hj)
  · rintro ⟨hk, hgreatest⟩
    cases hlast : (b.carriers l).getLast? with
    | none =>
      rw [List.getLast?_eq_none_iff.mp hlast] at hk
      cases hk
    | some j =>
      obtain ⟨before, hbefore⟩ := List.getLast?_eq_some_iff.mp hlast
      have hj : j ≤ k := hgreatest j (by simp [hbefore])
      rw [hbefore] at hincreasing hk
      rcases List.mem_append.mp hk with hk | hk
      · have hlt := (List.pairwise_append.mp hincreasing).2.2 k hk j (by simp)
        omega
      · rw [List.mem_singleton.mp hk]

theorem position?_isSome_iff : (∃ k, b.position? l = some k) ↔ l ∈ b.labels := by
  rw [← Option.isSome_iff_exists, ← not_iff_not, Option.not_isSome_iff_eq_none,
    ← carriers_eq_nil_iff]
  exact List.getLast?_eq_none_iff

theorem keys_labelPositions (b : Body) : b.labelPositions.map Prod.fst = b.labels := by
  unfold labelPositions
  rw [List.map_filterMap]
  refine (List.filterMap_congr ?_).trans List.filterMap_some
  intro l hl
  obtain ⟨k, hk⟩ := position?_isSome_iff.mpr hl
  rw [hk]
  rfl

/-- What the table of the labels of a body says: each label that is carried, at the greatest index
that carries it. -/
structure IsTableOfLabels (b : Body) (t : List (Label × Nat)) : Prop where
  keys_nodup : (t.map Prod.fst).Nodup
  mem_keys_iff : ∀ l, l ∈ t.map Prod.fst ↔ ∃ k, b.Carries k l
  greatest : ∀ e ∈ t, b.Carries e.2 e.1 ∧ ∀ j, b.Carries j e.1 → j ≤ e.2

theorem labelPositions_isTable (b : Body) : b.IsTableOfLabels b.labelPositions where
  keys_nodup := by
    rw [keys_labelPositions]
    exact nodup_sorted _
  mem_keys_iff := by
    intro l
    rw [keys_labelPositions, ← position?_isSome_iff]
    constructor
    · rintro ⟨k, hk⟩
      exact ⟨k, (position?_eq_some_iff.mp hk).1⟩
    · rintro ⟨k, hk⟩
      rw [position?_isSome_iff, mem_labels]
      obtain ⟨i, hi, hl⟩ := hk
      exact ⟨i, List.mem_of_getElem? hi, hl⟩
  greatest := by
    intro e he
    obtain ⟨l, _, hl⟩ := List.mem_filterMap.mp he
    obtain ⟨k, hk, rfl⟩ := Option.map_eq_some_iff.mp hl
    exact position?_eq_some_iff.mp hk

/-! ## One pass over a body -/

/-- The table of branches with one more instruction, which stands at an index. -/
def noteBranch (t : OrderedMap Label (List Nat)) (k : Nat) (i : Instruction) :
    OrderedMap Label (List Nat) :=
  match i.branchTarget? with
  | some l => t.insert l ((t.find? l).getD [] ++ [k])
  | none => t

/-- The table of labels with those of one more instruction, which stands at an index. -/
def noteLabels (t : OrderedMap Label Nat) (k : Nat) (i : Instruction) : OrderedMap Label Nat :=
  t.insertAll (i.labels.map fun l => (l, k))

/-- The table that is made in one pass, instruction by instruction. -/
def gather {ν : Type} (note : OrderedMap Label ν → Nat → Instruction → OrderedMap Label ν)
    (b : Body) : OrderedMap Label ν :=
  b.zipIdx.foldl (fun t e => note t e.2 e.1) OrderedMap.empty

theorem gather_append_singleton {ν : Type}
    (note : OrderedMap Label ν → Nat → Instruction → OrderedMap Label ν) (b : Body)
    (i : Instruction) : gather note (b ++ [i]) = note (gather note b) b.length i := by
  unfold gather
  rw [List.zipIdx_append, List.foldl_append, Nat.zero_add]
  rfl

theorem sources_append_singleton (b : Body) (i : Instruction) (l : Label) :
    sources (b ++ [i]) l = b.sources l ++ if i.branchTarget? = some l then [b.length] else [] := by
  unfold sources
  rw [indicesWhere_append]
  congr 1
  by_cases hl : i.branchTarget? = some l <;> simp [indicesWhere, hl]

theorem find?_noteBranch (t : OrderedMap Label (List Nat)) (k : Nat) (i : Instruction)
    (l : Label) : (noteBranch t k i).find? l =
      if i.branchTarget? = some l then some ((t.find? l).getD [] ++ [k]) else t.find? l := by
  unfold noteBranch
  cases i.branchTarget? with
  | none => simp
  | some m =>
    simp only [OrderedMap.find?_insert, Option.some.injEq, eq_comm (a := l)]
    split
    · rename_i hm
      rw [hm]
    · rfl

/-- Gathered under a label is every branch to it so far. -/
theorem find?_gather_noteBranch (b : Body) (l : Label) :
    (gather noteBranch b).find? l = if b.sources l = [] then none else some (b.sources l) := by
  -- The pass goes from the front, so the body grows at its end.
  induction b using List.reverseRecOn with
  | nil => rfl
  | append_singleton b i ih =>
    rw [gather_append_singleton, find?_noteBranch, sources_append_singleton, ih]
    by_cases hl : i.branchTarget? = some l
    · by_cases hnone : sources b l = [] <;> simp [hl, hnone]
    · simp [hl]

theorem carriers_append_singleton (b : Body) (i : Instruction) (l : Label) :
    carriers (b ++ [i]) l = b.carriers l ++ if l ∈ i.labels then [b.length] else [] := by
  unfold carriers
  rw [indicesWhere_append]
  congr 1
  by_cases hl : l ∈ i.labels <;> simp [indicesWhere, hl]

theorem find?_noteLabels (t : OrderedMap Label Nat) (k : Nat) (i : Instruction) (l : Label) :
    (noteLabels t k i).find? l = if l ∈ i.labels then some k else t.find? l := by
  have hlast : (i.labels.map fun m => (m, k)).reverse.lookup l =
      if l ∈ i.labels then some k else none := by
    have htable := lookup_filterMap i.labels.reverse (fun _ => some k) l
    simp only [Option.map_some, List.mem_reverse] at htable
    rw [← List.map_reverse, ← List.filterMap_eq_map, ← htable]
    rfl
  unfold noteLabels
  rw [OrderedMap.find?_insertAll, hlast]
  split <;> rfl

/-- Gathered for a label is the last index so far that carries it. -/
theorem find?_gather_noteLabels (b : Body) (l : Label) :
    (gather noteLabels b).find? l = b.position? l := by
  induction b using List.reverseRecOn with
  | nil => rfl
  | append_singleton b i ih =>
    unfold position? at ih ⊢
    rw [gather_append_singleton, find?_noteLabels, carriers_append_singleton, ih]
    by_cases hl : l ∈ i.labels <;> simp [hl]

theorem gather_noteBranch_perm (b : Body) :
    (gather noteBranch b).entries.Perm b.branchSources := by
  refine OrderedMap.perm_of_lookup_eq (gather noteBranch b).distinct
    (branchSources_isTable b).keys_nodup fun l => ?_
  rw [lookup_branchSources]
  exact find?_gather_noteBranch b l

theorem gather_noteLabels_perm (b : Body) :
    (gather noteLabels b).entries.Perm b.labelPositions := by
  refine OrderedMap.perm_of_lookup_eq (gather noteLabels b).distinct
    (labelPositions_isTable b).keys_nodup fun l => ?_
  rw [lookup_labelPositions]
  exact find?_gather_noteLabels b l

/-! ## The laws -/

/-- Just the branches have a target. So the table of the branches of a body holds each of them once,
under its own target, and no empty list; and the table of labels gives for each label that is
carried the last index that carries it. One pass over the body gathers both tables. -/
theorem no_branch_is_missing_from_the_table :
    (∀ i : Instruction, (∃ l, i.branchTarget? = some l) ↔ i.isBranch = true) ∧
    ∀ b : Body,
      b.IsTableOfBranches b.branchSources ∧ b.IsTableOfLabels b.labelPositions ∧
      (gather noteBranch b).entries.Perm b.branchSources ∧
      (gather noteLabels b).entries.Perm b.labelPositions :=
  ⟨Instruction.branchTarget?_isSome_iff, fun b => ⟨branchSources_isTable b,
    labelPositions_isTable b, gather_noteBranch_perm b, gather_noteLabels_perm b⟩⟩

end Body

end Peephole
