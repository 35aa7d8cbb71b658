-- Patchers. A patcher applies its patches in order and remembers which of them it has
-- applied to which method, so that none is applied twice. What fails is reported and
-- tried again the next time.
import Peephole.BodyStore.Basic
import Peephole.Patch.Report

namespace Peephole

/-- Patches, and the names and targets of those that were applied. -/
structure Patcher where
  patches : List Patch
  done : List (String × Selector)

namespace Patcher

/-- A patcher that has done nothing yet. -/
def ofPatches (ps : List Patch) : Patcher := ⟨ps, []⟩

/-- The patches of a method. -/
def patchesFor (p : Patcher) (target : Selector) : List Patch :=
  p.patches.filter fun x => x.target == target

/-! ## Records -/

/-- A patch's name in front of what is said about it. -/
def tagged (x : Patch) (message : String) : String := "[" ++ x.name ++ "] " ++ message

/-- What is said about a patch that failed. -/
def failure (x : Patch) (reason : String) : Log.Record :=
  ⟨.warning, .patching, tagged x ("PATCH FAILED: " ++ reason)⟩

/-- What is said about a result. -/
def recordsOf (r : PatchResult) : List Log.Record :=
  match r.outcome with
  | .applied w _ warnings =>
    ⟨.info, .patching, tagged r.patch ("patched " ++ r.patch.target.key ++ " " ++ w.describe)⟩ ::
      warnings.map fun c => ⟨.warning, .patching, tagged r.patch c.message⟩
  | .patternNotFound => [failure r.patch ("instruction mismatch (" ++ r.message ++ ")")]
  | .unsafeRemoval .. => [failure r.patch r.message]
  | .methodMissing =>
    [failure r.patch ("target " ++ r.patch.target.key ++ " not available")]
  | .alreadyApplied =>
    [⟨.debug, .patching,
      tagged r.patch ("already applied to " ++ r.patch.target.key ++ ", skipping")⟩]

/-! ## One patch -/

/-- What one patch on one body gives: the patches done since, the result, and the records. -/
structure Step where
  done : List (String × Selector)
  result : PatchResult
  records : List Log.Record

/-- Applies a patch to a body, unless it was applied to the method before. -/
def applyOne (done : List (String × Selector)) (x : Patch) (b : Body) : Step :=
  if done.contains (x.name, x.target) then
    let result : PatchResult := ⟨x, b, .alreadyApplied⟩
    ⟨done, result, recordsOf result⟩
  else
    let result := x.apply b
    ⟨if result.applied then done ++ [(x.name, x.target)] else done, result,
      b.scanRecord x.pattern (b.scan x.pattern) :: recordsOf result⟩

/-- A patch whose method is not there. -/
def missing (done : List (String × Selector)) (x : Patch) : Step :=
  let result : PatchResult := ⟨x, [], .methodMissing⟩
  ⟨done, result, recordsOf result⟩

/-! ## One body -/

/-- What patches on one body give. -/
structure BodyRun where
  done : List (String × Selector)
  body : Body
  results : List PatchResult
  records : List Log.Record

/-- Applies patches to a body in order, each to what the one before it left. -/
def runOnBody (done : List (String × Selector)) : List Patch → Body → BodyRun
  | [], b => ⟨done, b, [], []⟩
  | x :: xs, b =>
    let step := applyOne done x b
    let rest := runOnBody step.done xs step.result.patched
    ⟨rest.done, rest.body, step.result :: rest.results, step.records ++ rest.records⟩

/-- Applies the patches of a method to a body of it. -/
def patchBody (p : Patcher) (target : Selector) (b : Body) : Patcher × BodyRun :=
  let run := runOnBody p.done (p.patchesFor target) b
  ({ p with done := run.done }, run)

/-! ## A store of bodies -/

/-- What patches on a store of bodies give. -/
structure StoreRun where
  done : List (String × Selector)
  store : BodyStore
  results : List PatchResult
  records : List Log.Record

/-- Applies a patch to the body of its method. -/
def applyIn (done : List (String × Selector)) (x : Patch) (s : BodyStore) : Step :=
  match s.find? x.target with
  | some b => applyOne done x b
  | none => missing done x

/-- The store with the body of a result put in, if the patch was applied. -/
def install (s : BodyStore) (r : PatchResult) : BodyStore :=
  if r.applied then s.insert r.patch.target r.patched else s

/-- Applies patches in order, each to the body of its method. -/
def runOnStore (done : List (String × Selector)) : List Patch → BodyStore → StoreRun
  | [], s => ⟨done, s, [], []⟩
  | x :: xs, s =>
    let step := applyIn done x s
    let rest := runOnStore step.done xs (install s step.result)
    ⟨rest.done, rest.store, step.result :: rest.results, step.records ++ rest.records⟩

/-- The record that ends a run. -/
def finished (r : Report) : Log.Record :=
  ⟨.info, .patching, "patching finished: " ++ r.describe⟩

/-- Applies all patches to the bodies of a store. -/
def applyAll (p : Patcher) (s : BodyStore) : Patcher × StoreRun :=
  let run := runOnStore p.done p.patches s
  ({ p with done := run.done },
    { run with records := run.records ++ [finished ⟨run.results⟩] })

end Patcher

end Peephole
