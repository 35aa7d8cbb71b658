-- What becomes of a patch when it is applied to a body. A pattern that is not found
-- and a removal that is not safe are outcomes, not errors, and nothing else can go
-- wrong.
import Peephole.Cursor
import Peephole.Patch.Spec
import Peephole.Pattern.Scan

namespace Peephole

/-! ## Outcomes -/

/-- A change of the effect on the stack. -/
structure StackChange where
  before : Int
  after : Int
  deriving DecidableEq

/-- A change of the effect on the stack, in words. -/
def StackChange.message (c : StackChange) : String :=
  "stack effect changes from " ++ Text.signed c.before ++ " to " ++ Text.signed c.after

/-- What became of a patch. -/
inductive Outcome where
  | applied (window : Window) (patched : Body) (warnings : List StackChange)
  | patternNotFound
  | unsafeRemoval (window : Window) (hazard : Hazard)
  | methodMissing
  | alreadyApplied

/-- The kinds of outcomes. -/
inductive Status where
  | applied | patternNotFound | unsafeRemoval | methodMissing | alreadyApplied
  deriving DecidableEq

/-- The word for a kind of outcome. -/
def Status.word : Status → String
  | applied => "applied"
  | patternNotFound => "pattern-not-found"
  | unsafeRemoval => "unsafe-removal"
  | methodMissing => "method-missing"
  | alreadyApplied => "already-applied"

/-- The kind of an outcome. -/
def Outcome.status : Outcome → Status
  | applied .. => .applied
  | patternNotFound => .patternNotFound
  | unsafeRemoval .. => .unsafeRemoval
  | methodMissing => .methodMissing
  | alreadyApplied => .alreadyApplied

/-- A patch, the body it was tried on, and what became of it. -/
structure PatchResult where
  patch : Patch
  before : Body
  outcome : Outcome

namespace PatchResult

/-- The kind of the outcome. -/
def status (r : PatchResult) : Status := r.outcome.status

/-- Whether the patch was applied. -/
def applied (r : PatchResult) : Bool := r.status == .applied

/-- Whether the patch failed; one that was applied before did not. -/
def failed (r : PatchResult) : Bool := r.status != .applied && r.status != .alreadyApplied

/-- The body to go on with. -/
def patched (r : PatchResult) : Body :=
  match r.outcome with
  | .applied _ patched _ => patched
  | _ => r.before

/-- The match, if there was one. -/
def window? (r : PatchResult) : Option Window :=
  match r.outcome with
  | .applied w .. => some w
  | .unsafeRemoval w _ => some w
  | _ => none

/-- What the application warns of. -/
def warnings (r : PatchResult) : List StackChange :=
  match r.outcome with
  | .applied _ _ warnings => warnings
  | _ => []

/-- Why the patch was not applied; empty when there is nothing to say. -/
def message (r : PatchResult) : String :=
  match r.outcome with
  | .patternNotFound =>
    r.patch.pattern.name ++ " not found in " ++ r.before.length.repr ++ " instruction(s)"
  | .unsafeRemoval _ hazard => hazard.message
  | .methodMissing => r.patch.target.key ++ " not provided"
  | _ => ""

/-- A result in words. -/
def describe (r : PatchResult) : String :=
  r.patch.name ++ ": " ++ r.status.word ++
  (match r.window? with
    | some w => " at " ++ w.describe
    | none => "") ++
  (if r.applied then
    " (" ++ r.before.length.repr ++ " -> " ++ r.patched.length.repr ++ " instructions)"
  else "") ++
  (if r.message.isEmpty then "" else " - " ++ r.message)

end PatchResult

/-! ## Application -/

namespace Patch

/-- The instructions of a match that a patch removes. -/
def removedFrom (p : Patch) (b : Body) (w : Window) : Body :=
  (b.drop (w.start.toNat + p.keep)).take p.remove

/-- The warning of a patch whose insertion has another effect on the stack than what it
removes. -/
def stackWarnings (p : Patch) (removed : Body) : List StackChange :=
  match removed.stackDelta?, Body.stackDelta? p.insert with
  | some before, some after => if before = after then [] else [⟨before, after⟩]
  | _, _ => []

/-- Applies a patch with a cursor. A removal that is not safe is an outcome; any other refusal
of the cursor would be an error. -/
def attempt (p : Patch) (b : Body) : Except CursorFault Outcome :=
  match b.scan p.pattern with
  | none => .ok .patternNotFound
  | some w =>
    match Cursor.edit b w p.keep p.remove p.insert with
    | .ok patched => .ok (.applied w patched (p.stackWarnings (p.removedFrom b w)))
    | .error (.removal (.hazard h)) => .ok (.unsafeRemoval w h)
    | .error f => .error f

/-- The cursor has no other reason to refuse. -/
theorem attempt_isOk (p : Patch) (b : Body) : ∃ o, p.attempt b = .ok o := by
  unfold attempt
  split
  · exact ⟨_, rfl⟩
  · rename_i w hw
    obtain ⟨k, _, rfl, hm⟩ := Body.scanFrom_eq_some hw
    have hb := p.pattern.bounds_of_matchesAt hm
    have hp := p.pattern.length_pos
    have hf := p.fits
    have hr := Cursor.edit_of_inside b ⟨k, p.pattern.length⟩ p.keep p.remove p.insert
      (by simp only; omega) (by simp only; omega) (by simp only [Window.stop]; omega)
      (by simp only; omega)
    rw [hr]
    cases hz : b.removalFault? ((k : Int) + p.keep) p.remove with
    | none => exact ⟨_, rfl⟩
    | some f =>
      obtain ⟨h, rfl⟩ := Body.removalFault?_of_inside (by omega) (by omega) hz
      exact ⟨_, rfl⟩

/-- What becomes of a patch on a body. -/
def outcomeOn (p : Patch) (b : Body) : Outcome :=
  match h : p.attempt b with
  | .ok o => o
  | .error _ => absurd (p.attempt_isOk b) (by rw [h]; intro ⟨_, ho⟩; cases ho)

theorem attempt_eq (p : Patch) (b : Body) : p.attempt b = .ok (p.outcomeOn b) := by
  obtain ⟨o, ho⟩ := p.attempt_isOk b
  unfold outcomeOn
  split
  · assumption
  · rename_i hf
    rw [ho] at hf
    cases hf

/-- Applies a patch to a body. -/
def apply (p : Patch) (b : Body) : PatchResult := ⟨p, b, p.outcomeOn b⟩

end Patch

end Peephole
