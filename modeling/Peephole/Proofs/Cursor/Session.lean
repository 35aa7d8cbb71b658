-- Cursors in use. Whatever is asked of a cursor, and in whatever order, it leaves the
-- body outside its window as it was. A call is refused for being out of place or for
-- asking to remove what is not safe to remove.
import Peephole.Proofs.Body.Splice
import Peephole.Proofs.Cursor.Steps

namespace Peephole

/-! ## Calls -/

/-- What can be asked: a cursor on a window of a body, or a step of the cursor in use. -/
inductive Call where
  | locate (b : Body) (w : Window)
  | advance (count : Int)
  | remove (count : Int)
  | insert (items : Body)

/-- A cursor in use, the body it was placed on, and the instructions it has put in. -/
structure Session where
  origin : Body
  items : Body
  cursor : Cursor

namespace Session

/-- The session in which a cursor is placed on a body. -/
def start (b : Body) (c : Cursor) : Session := ⟨b, [], c⟩

/-- What a call gives. -/
def perform (s : Session) : Call → Except CursorFault Session
  | .locate b w => (Cursor.locate b w).map (start b)
  | .advance count => (s.cursor.advance count).map fun cursor => { s with cursor }
  | .remove count => (s.cursor.remove count).map fun cursor => { s with cursor }
  | .insert items => (s.cursor.insert items).map fun cursor => { s with items, cursor }

/-- The session after a call. A call that fails leaves it as it was. -/
def after (s : Session) (call : Call) : Session :=
  match s.perform call with
  | .ok s' => s'
  | .error _ => s

/-- The session after calls in order. -/
def run (s : Session) (calls : List Call) : Session := calls.foldl after s

/-- The calls whose turn it is and whose counts stay in the window, with nothing unsafe. -/
def Allows (s : Session) : Call → Prop
  | .locate b w => w.Within b
  | .advance count => s.cursor.CanAdvance count
  | .remove count => s.cursor.CanReach count ∧ ¬ s.cursor.Endangers count
  | .insert _ => s.cursor.stage = .removed

/-- A removal whose turn it is and that stays in the window, but is not safe. -/
def IsUnsafe (s : Session) : Call → Prop
  | .remove count => s.cursor.CanReach count ∧ s.cursor.Endangers count
  | _ => False

theorem IsUnsafe.not_allows {s : Session} {call : Call} (h : s.IsUnsafe call) :
    ¬ s.Allows call := by
  cases call with
  | remove count => exact fun ha => ha.2 h.2
  | locate b w => exact absurd h id
  | advance count => exact absurd h id
  | insert items => exact absurd h id

/-! ## The invariant -/

/-- The session after a number of instructions of the window were passed over: the body is
the one it was placed on, with a span of the window replaced. -/
structure Shape (s : Session) (keep : Nat) : Prop where
  within : s.cursor.window.Within s.origin
  removed_nonneg : 0 ≤ s.cursor.removed
  span_in_window : keep + s.cursor.removed ≤ s.cursor.window.length
  body_eq : s.cursor.body =
    s.origin.take (s.cursor.window.start.toNat + keep) ++ s.items ++
      s.origin.drop (s.cursor.window.start.toNat + keep + s.cursor.removed.toNat)
  position_eq : s.cursor.position = s.cursor.window.start + keep + s.cursor.inserted
  inserted_eq : s.cursor.inserted = s.items.length
  keep_before_advance : s.cursor.stage = .located → keep = 0
  removed_before_remove : s.cursor.stage = .located ∨ s.cursor.stage = .advanced →
    s.cursor.removed = 0
  items_before_insert : s.cursor.stage ≠ .inserted → s.items = []

namespace Shape

variable {s : Session} {keep : Nat}

/-- Before a removal the body is the one the cursor was placed on. -/
theorem body_eq_origin (h : s.Shape keep)
    (hs : s.cursor.stage = .located ∨ s.cursor.stage = .advanced) : s.cursor.body = s.origin := by
  have hi : s.items = [] := by
    apply h.items_before_insert
    rcases hs with hs | hs <;> rw [hs] <;> simp
  rw [h.body_eq, h.removed_before_remove hs, hi]
  exact Body.splice_nothing _ _

theorem position_before_insert (h : s.Shape keep) (hs : s.cursor.stage ≠ .inserted) :
    s.cursor.position = s.cursor.window.start + keep := by
  rw [h.position_eq, h.inserted_eq, h.items_before_insert hs, List.length_nil]
  omega

/-- A cursor whose turn it is to remove has its window in its body. -/
theorem window_in_body (h : s.Shape keep) (hs : s.cursor.stage = .advanced) :
    0 ≤ s.cursor.position ∧ s.cursor.window.stop ≤ s.cursor.body.length := by
  rw [h.body_eq_origin (Or.inr hs), h.position_before_insert (by rw [hs]; simp)]
  have := h.within
  unfold Window.Within at this
  omega

/-- A cursor whose turn it is to insert stands in its body. -/
theorem position_in_body (h : s.Shape keep) (hs : s.cursor.stage = .removed) :
    0 ≤ s.cursor.position ∧ s.cursor.position ≤ s.cursor.body.length := by
  have hne : s.cursor.stage ≠ .inserted := by rw [hs]; simp
  have hw := h.within
  have hspan := h.span_in_window
  have hr := h.removed_nonneg
  unfold Window.Within Window.stop at hw
  rw [h.position_before_insert hne, h.body_eq, h.items_before_insert hne]
  simp only [List.append_nil, List.length_append, List.length_take, List.length_drop]
  omega

/-! ## What the calls keep -/

theorem start {b : Body} {w : Window} (hw : w.Within b) :
    (Session.start b ⟨b, w, w.start, .located, 0, 0⟩).Shape 0 where
  within := hw
  removed_nonneg := Int.le_refl 0
  span_in_window := by
    have := hw.2.1
    simp only [Session.start]
    omega
  body_eq := (Body.splice_nothing _ _).symm
  position_eq := by
    simp only [Session.start]
    omega
  inserted_eq := rfl
  keep_before_advance := fun _ => rfl
  removed_before_remove := fun _ => rfl
  items_before_insert := fun _ => rfl

theorem advance (h : s.Shape keep) {count : Nat} (hc : s.cursor.CanAdvance count) :
    Shape { s with
      cursor := { s.cursor with
        position := s.cursor.window.start + count
        stage := .advanced } } count := by
  obtain ⟨hs, _, hle⟩ := hc
  have hr := h.removed_before_remove (Or.inl hs)
  have hi := h.items_before_insert (by rw [hs]; simp)
  refine ⟨h.within, h.removed_nonneg, by simp only; omega, ?_, ?_, h.inserted_eq, ?_, ?_, ?_⟩
  · simp only
    rw [h.body_eq_origin (Or.inl hs), hr, hi]
    exact (Body.splice_nothing _ _).symm
  · simp only
    rw [h.inserted_eq, hi, List.length_nil]
    omega
  · intro hl
    cases hl
  · intro _
    exact hr
  · intro _
    exact hi

theorem remove (h : s.Shape keep) {count : Nat} (hc : s.cursor.CanReach count) :
    Shape { s with
      cursor := { s.cursor with
        body := s.cursor.body.splice s.cursor.position.toNat (count : Int).toNat []
        stage := .removed
        removed := count } } keep := by
  obtain ⟨hs, _, hle⟩ := hc
  have hne : s.cursor.stage ≠ .inserted := by rw [hs]; simp
  have hp := h.position_before_insert hne
  have hw := h.within
  unfold Window.Within at hw
  rw [hp] at hle
  unfold Window.stop at hle
  refine ⟨h.within, by simp only; omega, by simp only; omega, ?_, h.position_eq, h.inserted_eq,
    ?_, ?_, ?_⟩
  · simp only
    rw [h.body_eq_origin (Or.inr hs), h.items_before_insert hne]
    have hn : s.cursor.position.toNat = s.cursor.window.start.toNat + keep := by omega
    rw [hn]
    rfl
  · intro hl
    cases hl
  · rintro (hl | hl) <;> cases hl
  · intro _
    exact h.items_before_insert hne

theorem insert (h : s.Shape keep) (hs : s.cursor.stage = .removed) (items : Body) :
    Shape { s with
      items
      cursor := { s.cursor with
        body := s.cursor.body.splice s.cursor.position.toNat 0 items
        position := s.cursor.position + items.length
        stage := .inserted
        inserted := items.length } } keep := by
  have hne : s.cursor.stage ≠ .inserted := by rw [hs]; simp
  have hp := h.position_before_insert hne
  have hw := h.within
  have hspan := h.span_in_window
  have hr := h.removed_nonneg
  unfold Window.Within Window.stop at hw
  refine ⟨h.within, h.removed_nonneg, h.span_in_window, ?_, ?_, rfl, ?_, ?_, ?_⟩
  · simp only
    have hn : s.cursor.position.toNat = s.cursor.window.start.toNat + keep := by omega
    rw [hn, h.body_eq, h.items_before_insert hne]
    exact Body.splice_removed (by omega)
  · simp only
    rw [hp]
  · intro hl
    cases hl
  · rintro (hl | hl) <;> cases hl
  · intro hl
    exact absurd rfl hl

/-- A call that succeeds keeps the shape of the session, and one that does not is refused for
a reason of its own. -/
theorem perform_cases (h : s.Shape keep) (call : Call) :
    (s.Allows call ∧ ∃ s' keep', s.perform call = .ok s' ∧ s'.Shape keep') ∨
      (s.IsUnsafe call ∧ ∃ z, s.perform call = .error (.removal (.hazard z))) ∨
      (¬ s.Allows call ∧ ¬ s.IsUnsafe call ∧
        ∃ f, s.perform call = .error f ∧ f.IsMisstep) := by
  cases call with
  | locate b w =>
    rcases Cursor.locate_cases b w with ⟨hw, he⟩ | ⟨hw, f, he, hf⟩
    · exact Or.inl ⟨hw, _, 0, by rw [perform, he]; rfl, Shape.start hw⟩
    · exact Or.inr (Or.inr ⟨hw, id, f, by rw [perform, he]; rfl, hf⟩)
  | advance count =>
    rcases s.cursor.advance_cases count with ⟨hc, he⟩ | ⟨hc, f, he, hf⟩
    · obtain ⟨n, rfl⟩ := Int.eq_ofNat_of_zero_le hc.2.1
      exact Or.inl ⟨hc, _, n, by rw [perform, he]; rfl, h.advance hc⟩
    · exact Or.inr (Or.inr ⟨hc, id, f, by rw [perform, he]; rfl, hf⟩)
  | remove count =>
    rcases s.cursor.remove_cases count h.window_in_body with
      ⟨hc, hz, he⟩ | ⟨hc, hz, z, he⟩ | ⟨hc, f, he, hf⟩
    · obtain ⟨n, rfl⟩ := Int.eq_ofNat_of_zero_le hc.2.1
      exact Or.inl ⟨⟨hc, hz⟩, _, keep, by rw [perform, he]; rfl, h.remove hc⟩
    · exact Or.inr (Or.inl ⟨⟨hc, hz⟩, z, by rw [perform, he]; rfl⟩)
    · exact Or.inr (Or.inr ⟨fun ha => hc ha.1, fun hu => hc hu.1, f, by rw [perform, he]; rfl, hf⟩)
  | insert items =>
    rcases s.cursor.insert_cases items h.position_in_body with ⟨hs, he⟩ | ⟨hs, f, he, hf⟩
    · exact Or.inl ⟨hs, _, keep, by rw [perform, he]; rfl, h.insert hs items⟩
    · exact Or.inr (Or.inr ⟨hs, id, f, by rw [perform, he]; rfl, hf⟩)

theorem perform_succeeds_iff (h : s.Shape keep) (call : Call) :
    (∃ s', s.perform call = .ok s') ↔ s.Allows call := by
  rcases h.perform_cases call with ⟨ha, s', _, hp, _⟩ | ⟨hu, z, hp⟩ | ⟨ha, _, f, hp, _⟩
  · exact ⟨fun _ => ha, fun _ => ⟨s', hp⟩⟩
  · simp only [hp, reduceCtorEq, exists_false, false_iff]
    exact hu.not_allows
  · simp only [hp, reduceCtorEq, exists_false, false_iff]
    exact ha

theorem perform_of_unsafe (h : s.Shape keep) {call : Call} (hu : s.IsUnsafe call) :
    ∃ z, s.perform call = .error (.removal (.hazard z)) := by
  rcases h.perform_cases call with ⟨ha, _⟩ | ⟨_, hp⟩ | ⟨_, hn, _⟩
  · exact absurd ha hu.not_allows
  · exact hp
  · exact absurd hu hn

theorem perform_of_misstep (h : s.Shape keep) {call : Call} (ha : ¬ s.Allows call)
    (hu : ¬ s.IsUnsafe call) : ∃ f, s.perform call = .error f ∧ f.IsMisstep := by
  rcases h.perform_cases call with ⟨hy, _⟩ | ⟨hy, _⟩ | ⟨_, _, hp⟩
  · exact absurd hy ha
  · exact absurd hy hu
  · exact hp

theorem after (h : s.Shape keep) (call : Call) : ∃ keep', (s.after call).Shape keep' := by
  unfold Session.after
  rcases h.perform_cases call with ⟨_, s', keep', he, hs⟩ | ⟨_, z, he⟩ | ⟨_, _, f, he, _⟩
  · exact ⟨keep', by rw [he]; exact hs⟩
  · exact ⟨keep, by rw [he]; exact h⟩
  · exact ⟨keep, by rw [he]; exact h⟩

theorem run (h : s.Shape keep) (calls : List Call) : ∃ keep', (s.run calls).Shape keep' := by
  -- A call may place a new cursor, so the session and the count vary with the calls.
  induction calls generalizing s keep with
  | nil => exact ⟨keep, h⟩
  | cons call rest ih =>
    obtain ⟨keep', h'⟩ := h.after call
    exact ih h'

/-- What stands before the window and after it stands there still. -/
theorem outside_kept (h : s.Shape keep) :
    ∃ inner, s.cursor.body =
      s.origin.take s.cursor.window.start.toNat ++ inner ++
        s.origin.drop s.cursor.window.stop.toNat := by
  have hw := h.within
  have hspan := h.span_in_window
  have hr := h.removed_nonneg
  unfold Window.Within Window.stop at hw
  rw [h.body_eq]
  apply Body.splice_keeps_outside
  · omega
  · unfold Window.stop
    omega

end Shape

/-! ## The laws -/

/-- A cursor is placed on a window that lies in its body, and on no other. From then on, after
any calls in any order, the body is the one it was placed on with a span of the window replaced.
A call succeeds exactly when it is its turn, its count stays in the window and nothing unsafe is
removed. Any other call is refused as out of place, save a removal that is in place but unsafe. -/
theorem a_cursor_keeps_all_outside_its_window (b : Body) (w : Window) :
    ((∃ c, Cursor.locate b w = .ok c) ↔ w.Within b) ∧
    (¬ w.Within b → ∃ f, Cursor.locate b w = .error f ∧ f.IsMisstep) ∧
    ∀ c, Cursor.locate b w = .ok c → ∀ (calls : List Call) (s : Session),
      s = (start b c).run calls →
      (∃ keep, s.Shape keep) ∧
      (∃ inner, s.cursor.body =
        s.origin.take s.cursor.window.start.toNat ++ inner ++
          s.origin.drop s.cursor.window.stop.toNat) ∧
      ∀ call,
        ((∃ s', s.perform call = .ok s') ↔ s.Allows call) ∧
        (s.IsUnsafe call → ∃ z, s.perform call = .error (.removal (.hazard z))) ∧
        (¬ s.Allows call → ¬ s.IsUnsafe call →
          ∃ f, s.perform call = .error f ∧ f.IsMisstep) := by
  rcases Cursor.locate_cases b w with ⟨hw, he⟩ | ⟨hw, f, he, hf⟩
  · refine ⟨⟨fun _ => hw, fun _ => ⟨_, he⟩⟩, fun hn => absurd hw hn, ?_⟩
    rintro c hc calls s rfl
    rw [he] at hc
    cases hc
    obtain ⟨keep, h⟩ := (Shape.start hw).run calls
    exact ⟨⟨keep, h⟩, h.outside_kept, fun call =>
      ⟨h.perform_succeeds_iff call, h.perform_of_unsafe, h.perform_of_misstep⟩⟩
  · simp only [he, reduceCtorEq, exists_false, false_iff, false_implies, implies_true, and_true]
    exact ⟨hw, fun _ => ⟨f, rfl, hf⟩⟩

/-- On the middle two of four instructions, a removal before its turn changes nothing, and the
cursor then goes through all its stages. -/
theorem a_cursor_on_two_of_four_instructions :
    let nop : Instruction := ⟨.nop, none, [], [], rfl⟩
    let null : Instruction := ⟨.ldnull, none, [], [], rfl⟩
    let b : Body := [nop, null, ⟨.pop, none, [], [], rfl⟩, ⟨.ret, none, [], [], rfl⟩]
    let calls : List Call := [.remove 2, .advance 0, .advance 1, .remove 2, .insert [nop, nop]]
    ∃ c, Cursor.locate b ⟨1, 2⟩ = .ok c ∧
      ((start b c).run calls).cursor.stage = .inserted ∧
      ((start b c).run calls).cursor.body.length = 4 ∧
      ∃ keep, ((start b c).run calls).Shape keep := by
  refine ⟨_, rfl, rfl, rfl, ?_⟩
  exact ((a_cursor_keeps_all_outside_its_window _ ⟨1, 2⟩).2.2 _ rfl _ _ rfl).1

end Session

end Peephole
