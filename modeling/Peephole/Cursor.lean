-- Cursors. A cursor edits one window of a body in a fixed order: it passes over the
-- first instructions of the window, removes some, and puts others in. Each step gives
-- a new cursor, so a step that fails leaves the old one as it was.
import Peephole.Body.Removal
import Peephole.Window

namespace Peephole

/-- How far a cursor has come. -/
inductive Stage where
  | located | advanced | removed | inserted
  deriving DecidableEq

/-- The name of a stage. -/
def Stage.name : Stage → String
  | located => "LOCATED"
  | advanced => "PREFIX_ADVANCED"
  | removed => "REMOVED"
  | inserted => "INSERTED"

/-- Why a step is refused. -/
inductive CursorFault where
  | windowOutside (w : Window) (length : Nat)
  | cannotAdvance (stage : Stage)
  | cannotRemove (stage : Stage)
  | cannotInsert (stage : Stage)
  | advanceOutside (count : Int) (w : Window)
  | removalOutside (count position : Int) (w : Window)
  | removal (f : RemovalFault)
  | edit (f : EditFault)

/-- The wording of a refusal. A span beyond the body has none of its own. -/
def CursorFault.message : CursorFault → Option String
  | windowOutside w length =>
    some ("window " ++ w.describe ++ " outside of " ++ length.repr ++ " instruction(s)")
  | cannotAdvance stage => some ("cannot advance in stage " ++ stage.name)
  | cannotRemove stage => some ("cannot remove in stage " ++ stage.name)
  | cannotInsert stage => some ("cannot insert in stage " ++ stage.name)
  | advanceOutside count w =>
    some ("cannot advance " ++ count.repr ++ " within window " ++ w.describe)
  | removalOutside count position w =>
    some ("removing " ++ count.repr ++ " at " ++ position.repr ++ " leaves window " ++ w.describe)
  | removal (.hazard h) => some h.message
  | removal (.noInstruction _) => none
  | edit f => some f.message

/-- A body, the window in work, and where the cursor stands in it. -/
structure Cursor where
  body : Body
  window : Window
  position : Int
  stage : Stage
  removed : Int
  inserted : Nat

namespace Cursor

/-- A cursor at the start of a window, which has to lie inside the body and not be empty. -/
def locate (b : Body) (w : Window) : Except CursorFault Cursor :=
  if w.start < 0 ∨ w.length ≤ 0 ∨ (b.length : Int) < w.stop then
    .error (.windowOutside w b.length)
  else .ok ⟨b, w, w.start, .located, 0, 0⟩

/-- Passes over the first instructions of the window. -/
def advance (c : Cursor) (count : Int) : Except CursorFault Cursor :=
  if c.stage ≠ .located then .error (.cannotAdvance c.stage)
  else if count < 0 ∨ c.window.length < count then .error (.advanceOutside count c.window)
  else .ok { c with position := c.window.start + count, stage := .advanced }

/-- Removes the next instructions, which have to lie inside the window and be safe to remove. -/
def remove (c : Cursor) (count : Int) : Except CursorFault Cursor :=
  if c.stage ≠ .advanced then .error (.cannotRemove c.stage)
  else if count < 0 ∨ c.window.stop < c.position + count then
    .error (.removalOutside count c.position c.window)
  else
    match c.body.removalFault? c.position count with
    | some f => .error (.removal f)
    | none =>
      match c.body.remove c.position count with
      | .ok body => .ok { c with body, stage := .removed, removed := count }
      | .error f => .error (.edit f)

/-- Puts instructions in and moves behind them. -/
def insert (c : Cursor) (items : Body) : Except CursorFault Cursor :=
  if c.stage ≠ .removed then .error (.cannotInsert c.stage)
  else
    match c.body.insert c.position items with
    | .ok body =>
      .ok { c with
        body
        position := c.position + items.length
        stage := .inserted
        inserted := items.length }
    | .error f => .error (.edit f)

/-- Whether all steps are done. -/
def isDone (c : Cursor) : Bool := c.stage == .inserted

/-- All steps over one window. -/
def edit (b : Body) (w : Window) (keep remove : Int) (items : Body) :
    Except CursorFault Body := do
  let c ← locate b w
  let c ← c.advance keep
  let c ← c.remove remove
  let c ← c.insert items
  return c.body

/-- Inside the body and the window, only a fault of the removal can stop an edit, and what
comes out is the body with the span replaced. -/
theorem edit_of_inside (b : Body) (w : Window) (keep remove : Nat) (items : Body)
    (h₀ : 0 ≤ w.start) (h₁ : 0 < w.length) (h₂ : w.stop ≤ b.length)
    (h₃ : keep + remove ≤ w.length) :
    edit b w keep remove items =
      match b.removalFault? (w.start + keep) remove with
      | some f => .error (.removal f)
      | none => .ok (b.splice (w.start.toNat + keep) remove items) := by
  have hstop : w.stop = w.start + w.length := rfl
  have hn : (w.start + keep).toNat = w.start.toNat + keep := by omega
  unfold edit
  rw [locate, if_neg (by omega)]
  simp only [bind, Except.bind, advance, ne_eq, not_true_eq_false, if_false]
  rw [if_neg (by omega)]
  simp only [Cursor.remove, ne_eq, not_true_eq_false, if_false]
  rw [if_neg (by omega)]
  cases hf : b.removalFault? (w.start + keep) remove with
  | some f => rfl
  | none =>
    have hr := Body.replace_eq_ok b (w.start + keep) remove [] (by omega) (by omega) (by omega)
    simp only [Body.remove, hr]
    have hl : (b.splice (w.start + keep).toNat (remove : Int).toNat []).length =
        b.length - remove := by
      simp only [Body.splice, List.append_nil, List.length_append, List.length_take,
        List.length_drop]
      omega
    have hi := Body.replace_eq_ok (b.splice (w.start + keep).toNat (remove : Int).toNat [])
      (w.start + keep) 0 items (by omega) (by omega) (by rw [hl]; omega)
    simp only [Cursor.insert, ne_eq, not_true_eq_false, if_false, Body.insert, hi]
    simp only [pure, Except.pure, Except.ok.injEq, Body.splice, hn, Int.toNat_natCast,
      Int.toNat_zero, List.append_nil, Nat.add_zero]
    have ht : (b.take (w.start.toNat + keep)).length = w.start.toNat + keep := by
      rw [List.length_take]; omega
    rw [List.take_append_of_le_length (by omega), List.take_of_length_le (by omega),
      List.drop_append_of_le_length (by omega), List.drop_of_length_le (by omega),
      List.nil_append]

end Cursor

end Peephole
