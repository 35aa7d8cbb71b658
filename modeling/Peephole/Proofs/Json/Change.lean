-- Values with a part changed. A change under one name leaves what stands under every other name,
-- and a change of the items of an array leaves whatever is no array.
import Peephole.Proofs.Data.Comparison
import Peephole.Proofs.Instruction.Written

namespace Peephole.Json

variable {fs : List (String × Json)} {name other : String} {f : Json → Json} {x : Json}

/-! ## Fields -/

/-- What stands under a name, if anything does. -/
def under? (name : String) : Json → Option Json
  | obj fields => field? fields name
  | _ => none

/-- Fields with the first of a name changed, which is the one that counts. -/
def mapField (name : String) (f : Json → Json) : List (String × Json) → List (String × Json)
  | [] => []
  | (n, x) :: rest => if n = name then (n, f x) :: rest else (n, x) :: mapField name f rest

/-- A value with a field changed, if it has the field. -/
def change (name : String) (f : Json → Json) : Json → Json
  | obj fields => obj (mapField name f fields)
  | x => x

theorem field?_mapField : field? (mapField name f fs) other =
    if other = name then (field? fs name).map f else field? fs other := by
  induction fs with
  | nil => simp [mapField, field?]
  | cons e es ih =>
    obtain ⟨n, x⟩ := e
    simp only [field?] at ih ⊢
    by_cases hn : n = name
    · by_cases ho : other = n
      · simp [mapField, ← hn, ho]
      · simp [mapField, ← hn, ho, List.lookup_cons, beq_eq_false_iff_ne.mpr ho]
    · by_cases ho : other = n
      · simp [mapField, hn, ho]
      · simp [mapField, hn, List.lookup_cons, beq_eq_false_iff_ne.mpr ho, ih,
          beq_eq_false_iff_ne.mpr (Ne.symm hn)]

theorem item_change : (x.change name f).item name = (x.item name).map f := by
  cases x with
  | obj fields =>
    simp only [change, item, field?_mapField, if_true]
    cases field? fields name <;> rfl
  | _ => rfl

theorem item_change_of_ne (h : other ≠ name) : (x.change name f).item other = x.item other := by
  cases x with
  | obj fields => simp only [change, item, field?_mapField, if_neg h]
  | _ => rfl

theorem item?_change : (x.change name f).item? name = (x.item? name).map (Option.map f) := by
  cases x with
  | obj fields => simp [change, item?, field?_mapField, Except.map]
  | _ => rfl

theorem item?_change_of_ne (h : other ≠ name) : (x.change name f).item? other = x.item? other := by
  cases x with
  | obj fields => simp only [change, item?, field?_mapField, if_neg h]
  | _ => rfl

theorem under?_of_item {y : Json} (h : x.item name = .ok y) : x.under? name = some y := by
  cases x with
  | obj fields =>
    simp only [item] at h
    split at h
    · rw [← Except.ok.inj h]
      assumption
    · cases h
  | _ => cases h

theorem under?_of_item? {y : Option Json} (h : x.item? name = .ok y) : x.under? name = y := by
  cases x with
  | obj fields => exact Except.ok.inj h
  | _ => cases h

theorem under?_of_present? {y : Json} (h : x.present? name = .ok (some y)) :
    x.under? name = some y := by
  obtain ⟨z, hz, h⟩ := ok_of_bind h
  rw [under?_of_item? hz]
  split at h
  · cases h
  · exact Except.ok.inj h

/-- A change that makes nothing of nothing, and of nothing else, changes what is present. -/
theorem present?_change (hnull : ∀ y, x.under? name = some y → (f y = .null ↔ y = .null)) :
    (x.change name f).present? name = (x.present? name).map (Option.map f) := by
  unfold present?
  rw [item?_change]
  cases hx : x.item? name with
  | error e => rfl
  | ok found =>
    cases found with
    | none => rfl
    | some y =>
      have hy := hnull y (under?_of_item? hx)
      by_cases h : y = .null
      · subst h
        simp [hy.mpr rfl, bind, Except.bind, Except.map, pure, Except.pure]
      · simp [h, mt hy.mp h, bind, Except.bind, Except.map, pure, Except.pure]

/-! ## Items -/

/-- The items of an array. -/
def items : Json → List Json
  | arr xs => xs
  | _ => []

/-- An array with its items changed. -/
def changeItems (f : Json → Json) : Json → Json
  | arr xs => arr (xs.map f)
  | x => x

/-- Work on the parts of a value before and after its items are changed. A text or an object has
parts too; those are texts, and they stay. -/
theorem parts_changeItems {α : Type} (C : Comparison Fault) {P : Json → Json → Prop}
    {k k' : List Json → Except Fault α} (hitems : ∀ y ∈ x.items, P y (f y))
    (htext : ∀ s, P (.str s) (.str s))
    (hk : ∀ ys g, (∀ y ∈ ys, P y (g y)) → C.Rel (k ys) (k' (ys.map g))) :
    C.Rel (x.parts >>= k) ((x.changeItems f).parts >>= k') := by
  have hsame : ∀ ys : List Json, (∀ y ∈ ys, ∃ s, y = .str s) → C.Rel (k ys) (k' ys) := by
    intro ys hys
    have h := hk ys id fun y hy => by
      obtain ⟨s, rfl⟩ := hys y hy
      exact htext s
    rwa [List.map_id] at h
  cases x with
  | arr xs => exact hk xs f hitems
  | str s =>
    apply hsame
    intro y hy
    obtain ⟨c, _, rfl⟩ := List.mem_map.mp hy
    exact ⟨_, rfl⟩
  | obj fields =>
    apply hsame
    intro y hy
    obtain ⟨c, _, rfl⟩ := List.mem_map.mp hy
    exact ⟨_, rfl⟩
  | _ => exact C.refl _

end Peephole.Json
