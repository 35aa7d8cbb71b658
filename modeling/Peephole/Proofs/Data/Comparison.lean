-- Results of work that may fail, compared side by side. Two runs that go on alike from results
-- that compare give results that compare, so a comparison of the smallest steps carries over to
-- all that is made of them.
import Peephole.Proofs.Data.Results

namespace Peephole

/-- A way to compare results which work that goes on alike from both sides keeps. -/
structure Comparison (ε : Type) where
  Rel : ∀ {α : Type}, Except ε α → Except ε α → Prop
  refl : ∀ {α : Type} (x : Except ε α), Rel x x
  bind : ∀ {α β : Type} {x y : Except ε α} {f g : α → Except ε β},
    Rel x y → (∀ a, Rel (f a) (g a)) → Rel (x >>= f) (y >>= g)

namespace Comparison

variable {ε α β : Type}

/-- The results are the same, and so are the faults. -/
def same (ε : Type) : Comparison ε where
  Rel x y := x = y
  refl _ := rfl
  bind h hf := by rw [h, funext hf]

/-- What comes of the one side comes of the other; where the one fails, nothing is said. -/
def within (ε : Type) : Comparison ε where
  Rel x y := ∀ a, x = .ok a → y = .ok a
  refl _ _ h := h
  bind {_ _ x y f g} h hf b hb := by
    obtain ⟨a, ha, hb⟩ := ok_of_bind hb
    rw [h a ha]
    exact hf a b hb

/-- The comparison with its sides exchanged. -/
def flip (C : Comparison ε) : Comparison ε where
  Rel x y := C.Rel y x
  refl x := C.refl x
  bind h hf := C.bind h hf

variable (C : Comparison ε)

theorem map {x y : Except ε α} (f : α → β) (h : C.Rel x y) : C.Rel (x.map f) (y.map f) := by
  have hmap : ∀ z : Except ε α, z.map f = z >>= fun a => .ok (f a) := by
    intro z
    cases z <;> rfl
  rw [hmap, hmap]
  exact C.bind h fun a => C.refl _

/-- A step that both sides take alike, though the one goes on with something else than the
other. -/
theorem step {γ : Type} (x : Except ε α) {f : β → Except ε γ} {g : α → Except ε γ} {h : α → β}
    (hf : ∀ a, x = .ok a → C.Rel (g a) (f (h a))) : C.Rel (x >>= g) (x.map h >>= f) := by
  cases x with
  | error e => exact C.refl _
  | ok a => exact hf a rfl

/-- A step that both sides take alike. -/
theorem after (x : Except ε α) {f g : α → Except ε β} (hf : ∀ a, x = .ok a → C.Rel (f a) (g a)) :
    C.Rel (x >>= f) (x >>= g) := by
  cases x with
  | error e => exact C.refl _
  | ok a => exact hf a rfl

/-- Lists are worked through side by side. -/
theorem mapM {γ : Type} {f : α → Except ε γ} {g : β → Except ε γ} {h : α → β} {xs : List α}
    (hf : ∀ x ∈ xs, C.Rel (f x) (g (h x))) : C.Rel (xs.mapM f) ((xs.map h).mapM g) := by
  induction xs with
  | nil => exact C.refl _
  | cons x xs ih =>
    rw [List.map_cons, List.mapM_cons, List.mapM_cons]
    have hx := hf x List.mem_cons_self
    have hxs := ih fun z hz => hf z (List.mem_cons_of_mem _ hz)
    exact C.bind hx fun y => C.bind hxs fun ys => C.refl _

end Comparison

end Peephole
