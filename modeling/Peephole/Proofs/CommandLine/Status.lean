-- The exit status of a run. Every patch that is asked for is tried once, and a strict run succeeds
-- only when every entry of every catalogue could be read and every patch was applied.
import Mathlib.Data.List.Nodup
import Peephole.CommandLine.Run
import Peephole.Proofs.Catalog.Merging
import Peephole.Proofs.Patcher.History

namespace Peephole.CommandLine

open Log

variable {look : Look} {members : MemberTable} {o : Options}

/-! ## Loading -/

theorem finds_of_checkInputs (h : checkInputs look o = .ok ()) :
    ∀ p ∈ o.patches, look.finds p = true := by
  unfold checkInputs at h
  split at h
  · cases h
  · rename_i hnone
    intro p hp
    have hfound := List.find?_eq_none.mp hnone p (List.mem_cons_of_mem _ hp)
    simpa using hfound

/-- A catalogue that is added brings what its file holds. -/
theorem addCatalog_eq_ok {c c' : Catalog} {p : Path} (hfound : look.finds p = true)
    (h : (addCatalog look members c p).outcome = .ok c') :
    ∃ f, Catalog.fileAt look members p = .ok f ∧
      c'.patches = c.patches ++ f.patches ∧ c'.rejected = c.rejected ++ f.rejected := by
  obtain ⟨loaded, hload, h⟩ := Logged.outcome_bind_eq_ok (ok_of_mapError h)
  obtain ⟨extended, hextend, h⟩ := Logged.outcome_bind_eq_ok h
  cases h
  obtain ⟨f, hf, hpatches, hrejected⟩ := Catalog.load_eq_ok hfound hload
  obtain ⟨hp, hr⟩ := Catalog.extend_eq_ok hextend
  exact ⟨f, hf, by rw [hp, hpatches], by rw [hr, hrejected]⟩

/-- Catalogues that are added one after the other bring what their files hold, in order. -/
theorem addCatalogs_eq_ok {c c' : Catalog} {paths : List Path}
    (hfound : ∀ p ∈ paths, look.finds p = true)
    (h : (addCatalogs look members c paths).outcome = .ok c') :
    ∃ files, paths.mapM (Catalog.fileAt look members) = .ok files ∧
      c'.patches = c.patches ++ files.flatMap Catalog.File.patches ∧
      c'.rejected = c.rejected ++ files.flatMap Catalog.File.rejected := by
  induction paths generalizing c with
  | nil =>
    cases h
    exact ⟨[], rfl, by simp, by simp⟩
  | cons p paths ih =>
    rw [List.forall_mem_cons] at hfound
    obtain ⟨c₁, hadd, h⟩ := Logged.outcome_bind_eq_ok h
    obtain ⟨f, hf, hp, hr⟩ := addCatalog_eq_ok hfound.1 hadd
    obtain ⟨files, hfiles, hps, hrs⟩ := ih hfound.2 h
    refine ⟨f :: files, ?_, by simp [hps, hp], by simp [hrs, hr]⟩
    rw [List.mapM_cons, hf, hfiles]
    rfl

theorem blueprintsPatch_isOk : ∃ q, Catalog.blueprintsPatch none = .ok q := ⟨_, rfl⟩

/-- The patches that are asked for and that can be read: the one that comes with the program, if it
is asked for, and those of the files. -/
def requested (o : Options) (q : Patch) (files : List Catalog.File) : List Patch :=
  (if o.builtin then [q] else []) ++ files.flatMap Catalog.File.patches

/-- The catalogue of a run has the patch that comes with the program, if it is asked for, and then
what the files hold. -/
theorem loadCatalog_eq_ok {c : Catalog} {q : Patch} (hq : Catalog.blueprintsPatch none = .ok q)
    (hfound : ∀ p ∈ o.patches, look.finds p = true)
    (h : (loadCatalog look o members).outcome = .ok c) :
    ∃ files, o.patches.mapM (Catalog.fileAt look members) = .ok files ∧
      c.patches = requested o q files ∧
      c.rejected = files.flatMap Catalog.File.rejected := by
  unfold requested
  unfold loadCatalog at h
  cases hb : o.builtin with
  | false =>
    rw [hb] at h
    obtain ⟨files, hfiles, hpatches, hrejected⟩ := addCatalogs_eq_ok hfound h
    exact ⟨files, hfiles, hpatches, hrejected⟩
  | true =>
    rw [hb] at h
    obtain ⟨start, hstart, h⟩ := Logged.outcome_bind_eq_ok h
    change (Catalog.builtin none).mapError Stop.fault = .ok start at hstart
    obtain ⟨hp, hr⟩ := Catalog.builtin_eq_ok hq (ok_of_mapError hstart)
    obtain ⟨files, hfiles, hpatches, hrejected⟩ := addCatalogs_eq_ok hfound h
    rw [hp] at hpatches
    rw [hr] at hrejected
    exact ⟨files, hfiles, hpatches, hrejected⟩

/-! ## Patching -/

/-- A report in which nothing was skipped is made up of what was applied and what failed. -/
theorem applied_add_failed {r : Report} (h : ∀ x ∈ r.results, x.status ≠ .alreadyApplied) :
    r.applied.length + r.failed.length = r.results.length := by
  have hfailed : r.failed = r.results.filter fun x => !x.applied := by
    refine List.filter_congr fun x hx => ?_
    have hskipped := beq_eq_false_iff_ne.mpr (h x hx)
    simp [PatchResult.failed, PatchResult.applied, bne, hskipped]
  rw [hfailed]
  exact (List.length_eq_length_filter_add _).symm

/-- The patches of a catalogue have different names, so a patcher tries each of them. -/
theorem status_ne_alreadyApplied (c : Catalog) (s : BodyStore) :
    ∀ r ∈ (Patcher.applyAll (.ofPatches c.patches) s).2.results, r.status ≠ .alreadyApplied := by
  refine (Patcher.runOnStore_faithful [] c.patches s).status_ne_alreadyApplied ?_ (by simp)
  refine List.Nodup.of_map Prod.fst ?_
  have hnames : ((Patcher.runOnStore [] c.patches s).results.map PatchResult.key).map Prod.fst =
      c.patches.map Patch.name := by
    conv_rhs => rw [← Patcher.runOnStore_patches [] c.patches s]
    rw [List.map_map, List.map_map]
    rfl
  rw [hnames]
  exact c.distinct

/-- The report of a run has one result for each patch that is asked for, in order, and none of
them was skipped. -/
theorem patchAll_eq_ok {q : Patch} {r : Result} (hq : Catalog.blueprintsPatch none = .ok q)
    (h : (patchAll look o).outcome = .ok r) :
    ∃ members files, (loadMembers look o).outcome = .ok members ∧
      o.patches.mapM (Catalog.fileAt look members) = .ok files ∧
      r.report.results.map PatchResult.patch = requested o q files ∧
      r.rejected = files.flatMap Catalog.File.rejected ∧
      ∀ x ∈ r.report.results, x.status ≠ .alreadyApplied := by
  obtain ⟨i, hinputs, h⟩ := Logged.outcome_bind_eq_ok h
  obtain ⟨_, hcheck, hinputs⟩ := Logged.outcome_bind_eq_ok hinputs
  obtain ⟨members, hmembers, hinputs⟩ := Logged.outcome_bind_eq_ok hinputs
  obtain ⟨c, hcatalog, hinputs⟩ := Logged.outcome_bind_eq_ok hinputs
  obtain ⟨s, _, hinputs⟩ := Logged.outcome_bind_eq_ok hinputs
  cases hinputs
  cases h
  obtain ⟨files, hfiles, hpatches, hrejected⟩ :=
    loadCatalog_eq_ok hq (finds_of_checkInputs hcheck) hcatalog
  refine ⟨members, files, hmembers, hfiles, ?_, hrejected, status_ne_alreadyApplied c s⟩
  exact (Patcher.runOnStore_patches [] c.patches s).trans hpatches

/-! ## Ending -/

/-- What an action says. -/
def Action.line? : Action → Option String
  | .say line => some line
  | .write .. => none

/-- When everything could be done, everything was said. -/
theorem perform_output {d : Disk} {as : List Action} (h : (perform d as).fault = none) :
    (perform d as).output = as.filterMap Action.line? := by
  induction as generalizing d with
  | nil => rfl
  | cons a as ih =>
    cases a with
    | say line =>
      unfold perform at h ⊢
      simp only at h
      simp [ih h, Action.line?]
    | write p text =>
      unfold perform at h ⊢
      split at h
      · rw [ih h]
        rfl
      · cases h

/-- The summary is what is said last. -/
theorem output_getLast {d : Disk} {r : Result} (h : (perform d (actions o r)).fault = none) :
    (perform d (actions o r)).output.getLast? = some ("summary: " ++ r.report.describe) := by
  rw [perform_output h]
  unfold actions
  simp [List.filterMap_append, Action.line?]

/-- A run that comes to its end has patched, and has done all that is to be done with the result. -/
theorem run_eq_finished {d : Disk} {arguments : List String} {n : Nat}
    (h : (run d arguments).ending = .finished n) :
    ∃ o r, Request.ofArguments arguments = .run o ∧ (patchAll d.look o).outcome = .ok r ∧
      (perform d (actions o r)).fault = none ∧
      (run d arguments).output = (perform d (actions o r)).output ∧ n = status o r := by
  unfold run at h ⊢
  split at h
  · rename_i o ho
    unfold runJob at h ⊢
    simp only at h ⊢
    split at h
    · rename_i r hr
      split at h
      · rename_i hfault
        cases h
        exact ⟨o, r, ho, hr, hfault, rfl, rfl⟩
      · cases h
    · cases h
    · cases h
  · cases h
  · cases h

/-- The status with which a run has come to its end. -/
def Ending.status? : Ending → Option Nat
  | .finished n => some n
  | _ => none

theorem Ending.eq_finished {e : Ending} {n : Nat} (h : e.status? = some n) : e = .finished n := by
  cases e with
  | finished m => exact congrArg _ (Option.some.inj h)
  | _ => cases h

/-! ## Status -/

/-- Whether a patch was applied. -/
def Result.Applies (r : Result) (p : Patch) : Prop :=
  ∃ x ∈ r.report.results, x.patch = p ∧ x.status = .applied

theorem report_ok_iff {r : Report} (h : ∀ x ∈ r.results, x.status ≠ .alreadyApplied) :
    r.ok = true ↔ ∀ x ∈ r.results, x.status = .applied := by
  constructor
  · intro hok x hx
    rcases Patcher.status_of_ok hok x hx with hs | hs
    · exact hs
    · exact absurd hs (h x hx)
  · intro hall
    unfold Report.ok Report.failed
    rw [List.isEmpty_iff, List.filter_eq_nil_iff]
    intro x hx
    simp [PatchResult.failed, hall x hx]

theorem status_eq_one_iff {r : Result} {files : List Catalog.File}
    (hrejected : r.rejected = files.flatMap Catalog.File.rejected)
    (htried : ∀ x ∈ r.report.results, x.status ≠ .alreadyApplied) :
    status o r = 1 ↔ o.strict = true ∧
      ((∃ f ∈ files, f.rejected ≠ []) ∨ ∃ x ∈ r.report.results, x.status ≠ .applied) := by
  have hok : r.report.ok = false ↔ ∃ x ∈ r.report.results, x.status ≠ .applied := by
    rw [← Bool.not_eq_true, report_ok_iff htried]
    simp
  have hempty : r.rejected.isEmpty = false ↔ ∃ f ∈ files, f.rejected ≠ [] := by
    rw [← Bool.not_eq_true, List.isEmpty_iff, hrejected, List.flatMap_eq_nil_iff]
    simp
  unfold status
  rw [← hok, ← hempty]
  cases o.strict <;> cases r.rejected.isEmpty <;> cases r.report.ok <;> decide

theorem status_eq_zero_or_one (o : Options) (r : Result) : status o r = 0 ∨ status o r = 1 := by
  unfold status
  split
  · exact .inr rfl
  · exact .inl rfl

/-- When a strict run succeeds, no entry was rejected and every result says that its patch was
applied, so each entry has been read and its patch applied. -/
theorem applies_of_status_ne_one {q : Patch} {files : List Catalog.File} {r : Result}
    (hpatches : r.report.results.map PatchResult.patch = requested o q files)
    (hrejected : r.rejected = files.flatMap Catalog.File.rejected)
    (htried : ∀ x ∈ r.report.results, x.status ≠ .alreadyApplied)
    (hstrict : o.strict = true) (hone : status o r ≠ 1) :
    (∀ f ∈ files, ∀ e ∈ f.entries,
      ∃ p, Patch.ofJson (some f.members) e = .ok p ∧ r.Applies p) ∧
    (o.builtin = true → r.Applies q) := by
  rw [ne_eq, status_eq_one_iff hrejected htried, not_and, not_or] at hone
  obtain ⟨hread, happlied⟩ := hone hstrict
  have happlies : ∀ p ∈ requested o q files, r.Applies p := by
    intro p hp
    rw [← hpatches] at hp
    obtain ⟨x, hx, rfl⟩ := List.mem_map.mp hp
    refine ⟨x, hx, rfl, ?_⟩
    by_contra hbad
    exact happlied ⟨x, hx, hbad⟩
  constructor
  · intro f hf e he
    have hnone : f.rejected = [] := by
      by_contra hbad
      exact hread ⟨f, hf, hbad⟩
    obtain ⟨p, hp⟩ := f.rejected_eq_nil_iff.mp hnone e he
    refine ⟨p, hp, happlies p (List.mem_append_right _ (List.mem_flatMap.mpr ⟨f, hf, ?_⟩))⟩
    exact List.mem_filterMap.mpr ⟨e, he, by rw [hp]; rfl⟩
  · intro hb
    refine happlies q (List.mem_append_left _ ?_)
    rw [if_pos hb]
    exact List.mem_singleton_self q

/-! ## The law -/

/-- A run that comes to its end reports one result for each patch that is asked for and can be read:
first the one that comes with the program, if it is asked for, and then those of each file in order.
None of them is skipped, so what was applied and what failed add up to the total of the summary. The
exit status is one when the run is strict and an entry of a file was rejected or a patch was not
applied, and zero otherwise. So a strict run succeeds only when every entry of every file was
applied, and the patch that comes with the program too if it was asked for. -/
theorem a_strict_run_succeeds_only_when_all_is_applied {d : Disk} {arguments : List String} {n : Nat}
    (h : (run d arguments).ending = .finished n) :
    ∃ o q members files r,
      Request.ofArguments arguments = .run o ∧ Catalog.blueprintsPatch none = .ok q ∧
      (loadMembers d.look o).outcome = .ok members ∧
      o.patches.mapM (Catalog.fileAt d.look members) = .ok files ∧
      (patchAll d.look o).outcome = .ok r ∧
      r.report.results.map PatchResult.patch = requested o q files ∧
      r.rejected = files.flatMap Catalog.File.rejected ∧
      (∀ x ∈ r.report.results, x.status ≠ .alreadyApplied) ∧
      (run d arguments).output.getLast? = some ("summary: " ++ r.report.describe) ∧
      r.report.applied.length + r.report.failed.length = r.report.results.length ∧
      (n = 1 ↔ o.strict = true ∧
        ((∃ f ∈ files, f.rejected ≠ []) ∨ ∃ x ∈ r.report.results, x.status ≠ .applied)) ∧
      (n = 0 ∨ n = 1) ∧
      (o.strict = true → n = 0 →
        (∀ f ∈ files, ∀ e ∈ f.entries,
          ∃ p, Patch.ofJson (some f.members) e = .ok p ∧ r.Applies p) ∧
        (o.builtin = true → r.Applies q)) := by
  obtain ⟨q, hq⟩ := blueprintsPatch_isOk
  obtain ⟨o, r, ho, hr, hfault, houtput, rfl⟩ := run_eq_finished h
  obtain ⟨members, files, hmembers, hfiles, hpatches, hrejected, htried⟩ := patchAll_eq_ok hq hr
  refine ⟨o, q, members, files, r, ho, hq, hmembers, hfiles, hr, hpatches, hrejected, htried,
    houtput ▸ output_getLast hfault, applied_add_failed htried,
    status_eq_one_iff hrejected htried, status_eq_zero_or_one o r, ?_⟩
  intro hstrict hzero
  have hone : status o r ≠ 1 := by rw [hzero]; decide
  exact applies_of_status_ne_one hpatches hrejected htried hstrict hone

/-- Two strict runs on one disk. All that the first catalogue holds is applied; the second one has an
entry that is rejected. -/
theorem two_strict_runs :
    let d : Disk := ((Disk.place .empty ⟨"", ["b"]⟩
      "\x7b\"methods\":[\x7b\"target\":\"T::m()\",\"body\":[\x7b\"op\":\"nop\"\x7d]\x7d]\x7d").place
      ⟨"", ["p"]⟩ "[\x7b\"name\":\"d\",\"target\":\"T::m()\",
        \"pattern\":[\x7b\"op\":\"nop\"\x7d],\"remove\":1\x7d]").place
      ⟨"", ["q"]⟩ "[\x7b\"name\":\"e\"\x7d]"
    let good : List String := ["b", "--strict", "--patches", "p"]
    let bad : List String := ["b", "--strict", "--patches", "p", "--patches", "q"]
    (run d good).output = ["patched bodies written to b.patched.json",
      "d: applied at [0:1] (1 -> 0 instructions)", "summary: 1 applied, 0 failed, 1 total"] ∧
    (run d good).ending = .finished 0 ∧ (run d bad).ending = .finished 1 ∧
    (∃ o r, Request.ofArguments good = .run o ∧ (patchAll d.look o).outcome = .ok r ∧
      ∀ x ∈ r.report.results, x.status = .applied) ∧
    ∃ o members files r, Request.ofArguments bad = .run o ∧
      o.patches.mapM (Catalog.fileAt d.look members) = .ok files ∧
      (patchAll d.look o).outcome = .ok r ∧
      ((∃ f ∈ files, f.rejected ≠ []) ∨ ∃ x ∈ r.report.results, x.status ≠ .applied) := by
  intro d good bad
  have houtput : (run d good).output = ["patched bodies written to b.patched.json",
      "d: applied at [0:1] (1 -> 0 instructions)", "summary: 1 applied, 0 failed, 1 total"] := by
    decide +kernel
  have hgood : (run d good).ending = .finished 0 := Ending.eq_finished (by decide +kernel)
  have hbad : (run d bad).ending = .finished 1 := Ending.eq_finished (by decide +kernel)
  have hstrict : (match Request.ofArguments good with
      | .run o => o.strict
      | _ => false) = true := by decide +kernel
  refine ⟨houtput, hgood, hbad, ?_, ?_⟩
  · obtain ⟨o, q, members, files, r, ho, -, -, -, hr, -, -, -, -, -, hone, -, -⟩ :=
      a_strict_run_succeeds_only_when_all_is_applied hgood
    rw [ho] at hstrict
    refine ⟨o, r, ho, hr, fun x hx => ?_⟩
    by_contra hx'
    cases hone.mpr ⟨hstrict, .inr ⟨x, hx, hx'⟩⟩
  · obtain ⟨o, q, members, files, r, ho, -, -, hfiles, hr, -, -, -, -, -, hone, -, -⟩ :=
      a_strict_run_succeeds_only_when_all_is_applied hbad
    exact ⟨o, members, files, r, ho, hfiles, hr, (hone.mp rfl).2⟩

end Peephole.CommandLine
