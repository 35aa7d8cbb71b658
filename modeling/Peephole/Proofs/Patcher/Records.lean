-- The log of a run on a store. It is told by the results alone: each has its own records, which
-- stand in the order of the results, and the record of the whole run comes last.
import Peephole.Proofs.Patcher.Memory

namespace Peephole

/-! ## What the log says about a result -/

namespace PatchResult

/-- Why a patch failed, as the log says it. -/
def reason (r : PatchResult) : String :=
  match r.outcome with
  | .methodMissing => "target " ++ r.patch.target.key ++ " not available"
  | .patternNotFound => "instruction mismatch (" ++ r.message ++ ")"
  | _ => r.message

/-- The warning that a patch failed. -/
def failureRecord (r : PatchResult) : Log.Record :=
  ⟨.warning, .patching, Patcher.tagged r.patch ("PATCH FAILED: " ++ r.reason)⟩

/-- The record of a match. -/
def matchRecord (r : PatchResult) (w : Window) : Log.Record :=
  ⟨.debug, .scanner, r.patch.pattern.name ++ " matched at " ++ w.start.repr⟩

/-- All that the log says about a result. -/
def told (r : PatchResult) : List Log.Record :=
  match r.outcome with
  | .methodMissing => [r.failureRecord]
  | .alreadyApplied =>
    [⟨.debug, .patching,
      Patcher.tagged r.patch ("already applied to " ++ r.patch.target.key ++ ", skipping")⟩]
  | .patternNotFound =>
    [⟨.debug, .scanner, r.patch.pattern.name ++ " not found in " ++ r.before.length.repr ++
      " instruction(s)"⟩, r.failureRecord]
  | .unsafeRemoval w _ => [r.matchRecord w, r.failureRecord]
  | .applied w _ warnings =>
    [r.matchRecord w,
      ⟨.info, .patching,
        Patcher.tagged r.patch ("patched " ++ r.patch.target.key ++ " " ++ w.describe)⟩] ++
    warnings.map fun c => ⟨.warning, .patching, Patcher.tagged r.patch c.message⟩

end PatchResult

/-- The window of a result is what the scan found. -/
theorem Patch.window?_apply (p : Patch) (b : Body) : (p.apply b).window? = b.scan p.pattern := by
  unfold PatchResult.window? apply
  rcases b.least_match_cases p.pattern with hn | ⟨w, hw, hmin⟩
  · rw [outcomeOn_of_no_match hn, Body.scan_eq_none_iff.mpr hn]
  · rw [Body.scan_of_least hw hmin]
    by_cases hz : b.Hazardous (w + p.keep) (w + p.keep + p.remove)
    · obtain ⟨z, ho⟩ := outcomeOn_of_hazard hw hmin hz
      rw [ho]
    · rw [outcomeOn_of_match hw hmin hz]

namespace Patcher

/-! ## Runs -/

/-- Of a patch that is tried the log tells what the scan found, and then what became of it. -/
theorem scanRecord_cons_recordsOf {r : PatchResult}
    (h : r.status ≠ .methodMissing ∧ r.status ≠ .alreadyApplied) :
    r.before.scanRecord r.patch.pattern r.window? :: recordsOf r = r.told := by
  obtain ⟨x, b, o⟩ := r
  cases o with
  | methodMissing => exact absurd rfl h.1
  | alreadyApplied => exact absurd rfl h.2
  | _ => rfl

theorem applyOne_records (done : List (String × Selector)) (x : Patch) (b : Body) :
    (applyOne done x b).records = (applyOne done x b).result.told := by
  unfold applyOne
  split
  · rfl
  · simp only
    rw [← x.window?_apply b]
    exact scanRecord_cons_recordsOf (x.apply_status_ne b)

theorem applyIn_records (done : List (String × Selector)) (x : Patch) (s : BodyStore) :
    (applyIn done x s).records = (applyIn done x s).result.told := by
  unfold applyIn
  split
  · exact applyOne_records done x _
  · rfl

theorem runOnStore_records (done : List (String × Selector)) (xs : List Patch) (s : BodyStore) :
    (runOnStore done xs s).records = (runOnStore done xs s).results.flatMap PatchResult.told := by
  induction xs generalizing done s with
  | nil => rfl
  | cons x xs ih =>
    unfold runOnStore
    simp only [List.flatMap_cons, applyIn_records, ih]

/-! ## Failures -/

/-- Whether a record is a warning that a patch failed. -/
def tellsFailure (x : Patch) (record : Log.Record) : Bool :=
  record.level == .warning &&
    (tagged x "PATCH FAILED: ").toList.isPrefixOf record.message.toList

theorem tellsFailure_of_level {x : Patch} {record : Log.Record} (h : record.level ≠ .warning) :
    tellsFailure x record = false := by
  simp [tellsFailure, h]

/-- The name of the patch stands before the text, so that the text alone decides. -/
theorem tellsFailure_tagged (x : Patch) (level : Log.Level) (source : Log.Source) (text : String) :
    tellsFailure x ⟨level, source, tagged x text⟩ =
      (level == .warning && "PATCH FAILED: ".toList.isPrefixOf text.toList) := by
  have hname : ∀ t, (tagged x t).toList = ("[" ++ x.name ++ "] ").toList ++ t.toList :=
    fun t => String.toList_append
  unfold tellsFailure
  congr 1
  rw [Bool.eq_iff_iff, List.isPrefixOf_iff_prefix, List.isPrefixOf_iff_prefix, hname, hname,
    List.prefix_append_right_inj]

theorem tellsFailure_failureRecord (r : PatchResult) :
    tellsFailure r.patch r.failureRecord = true := by
  unfold PatchResult.failureRecord
  rw [tellsFailure_tagged, String.toList_append]
  simp

theorem tellsFailure_stackChange (x : Patch) (c : StackChange) :
    tellsFailure x ⟨.warning, .patching, tagged x c.message⟩ = false := by
  unfold StackChange.message
  rw [tellsFailure_tagged]
  simp only [String.toList_append]
  rfl

/-- The log has one warning of failure about each result that failed, and none about any other. -/
theorem filter_told (r : PatchResult) :
    r.told.filter (tellsFailure r.patch) = if r.failed then [r.failureRecord] else [] := by
  have hfailure := tellsFailure_failureRecord r
  have hmatch : ∀ w, tellsFailure r.patch (r.matchRecord w) = false :=
    fun w => tellsFailure_of_level (by simp [PatchResult.matchRecord])
  have hdebug : ∀ source text, tellsFailure r.patch ⟨.debug, source, text⟩ = false :=
    fun source text => tellsFailure_of_level (by simp)
  have hinfo : ∀ source text, tellsFailure r.patch ⟨.info, source, text⟩ = false :=
    fun source text => tellsFailure_of_level (by simp)
  unfold PatchResult.told PatchResult.failed PatchResult.status
  cases r.outcome with
  | methodMissing => simp [hfailure, Outcome.status]
  | alreadyApplied => simp [hdebug, Outcome.status]
  | patternNotFound => simp [hdebug, hfailure, Outcome.status]
  | unsafeRemoval w z => simp [hmatch, hfailure, Outcome.status]
  | applied w patched warnings =>
    simp [hmatch, hinfo, tellsFailure_stackChange, Outcome.status]

/-! ## The laws -/

/-- The log of a run says of each result in order what the scan found and what became of the patch,
and at the end what the report says. So its warnings of failure are those of the results that failed,
in order: each such result has one, under the name of its patch, and no other result has any. -/
theorem the_log_tells_what_the_report_tells (p : Patcher) (s : BodyStore) :
    let run := (p.applyAll s).2
    run.records = run.results.flatMap PatchResult.told ++
      [⟨.info, .patching, "patching finished: " ++ (Report.mk run.results).describe⟩] ∧
    (run.results.flatMap fun r => r.told.filter (tellsFailure r.patch)) =
      (Report.mk run.results).failed.map PatchResult.failureRecord := by
  intro run
  constructor
  · change (runOnStore p.done p.patches s).records ++ _ = _
    rw [runOnStore_records]
    rfl
  · unfold Report.failed
    induction run.results with
    | nil => rfl
    | cons r rs ih =>
      rw [List.flatMap_cons, ih, filter_told]
      cases h : r.failed <;> simp [h]

end Patcher

end Peephole
