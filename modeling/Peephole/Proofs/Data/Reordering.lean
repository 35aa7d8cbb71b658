-- Lists that are reordered. The items may move past each other, but those of one kind keep
-- their order. So the items of each kind are the same list before and after.
import Mathlib.Data.List.Sort
import Mathlib.Data.List.FinRange

namespace Peephole

/-- A reordering of a list that keeps the order of the items of each kind. -/
structure Reordering {α κ : Type} (kind : α → κ) (xs ys : List α) where
  /-- Where an item of the new list stood in the old one. -/
  source : Fin ys.length ≃ Fin xs.length
  get_eq : ∀ i, ys.get i = xs.get (source i)
  ordered : ∀ i j, i < j → kind (ys.get i) = kind (ys.get j) → source i < source j

namespace Reordering

variable {α β κ : Type} [DecidableEq κ] {kind : α → κ} {xs ys : List α}

/-! ## Places -/

/-- Where the items of a kind stand in a list. -/
def places (kind : α → κ) (xs : List α) (k : κ) : List (Fin xs.length) :=
  (List.finRange xs.length).filter fun i => kind (xs.get i) == k

theorem mem_places {k : κ} {i : Fin xs.length} :
    i ∈ places kind xs k ↔ kind (xs.get i) = k := by
  simp [places]

theorem pairwise_places (kind : α → κ) (xs : List α) (k : κ) :
    (places kind xs k).Pairwise (· < ·) :=
  (List.sortedLT_finRange xs.length).pairwise.filter _

/-- The items of a kind stood where the reordering says, in the same order. -/
theorem map_source_places (σ : Reordering kind xs ys) (k : κ) :
    (places kind ys k).map σ.source = places kind xs k := by
  -- Both lists increase, so it is enough that they have the same members.
  have hpairwise : ((places kind ys k).map σ.source).Pairwise (· < ·) := by
    rw [List.pairwise_map]
    refine List.Pairwise.imp_of_mem ?_ (pairwise_places kind ys k)
    intro i j hi hj hij
    exact σ.ordered i j hij ((mem_places.mp hi).trans (mem_places.mp hj).symm)
  refine hpairwise.eq_of_mem_iff (pairwise_places kind xs k) ?_
  intro j
  rw [List.mem_map, mem_places]
  constructor
  · rintro ⟨i, hi, rfl⟩
    rw [← σ.get_eq]
    exact mem_places.mp hi
  · intro hj
    refine ⟨σ.source.symm j, ?_, σ.source.apply_symm_apply j⟩
    rw [mem_places, σ.get_eq, σ.source.apply_symm_apply]
    exact hj

/-! ## Lists beside the lists -/

theorem filter_eq_map_get (us : List β) {n : Nat} (hn : n = us.length) (q : β → Bool) :
    us.filter q =
      ((List.finRange n).filter fun i => q (us.get (i.cast hn))).map
        fun i => us.get (i.cast hn) := by
  subst hn
  have h := congrArg (List.filter q) (List.map_get_finRange us)
  rw [List.filter_map] at h
  exact h.symm

/-- The entries for the items of a kind are those at the places of the kind. -/
theorem filter_eq_map_places {us : List β} {item : β → α} (hu : us.map item = xs)
    (hn : xs.length = us.length) (k : κ) :
    (us.filter fun u => kind (item u) == k) =
      (places kind xs k).map fun i => us.get (i.cast hn) := by
  rw [filter_eq_map_get us hn, places]
  subst hu
  simp

/-- Two lists stand beside the old and the new one, with an entry for each item. When they have
the same entries for each kind, an entry of the second is found in the first where the item
stood. -/
theorem get_eq_of_filter_eq (σ : Reordering kind xs ys) {us vs : List β} {item : β → α}
    (hu : us.map item = xs) (hv : vs.map item = ys)
    (hsame : ∀ k, (vs.filter fun v => kind (item v) == k) =
      us.filter fun u => kind (item u) == k) (i : Fin ys.length) :
    ∃ r, vs[(i : Nat)]? = some r ∧ us[(σ.source i : Nat)]? = some r := by
  have hxs : xs.length = us.length := by rw [← hu, List.length_map]
  have hys : ys.length = vs.length := by rw [← hv, List.length_map]
  have hmap := hsame (kind (ys.get i))
  rw [filter_eq_map_places hv hys, filter_eq_map_places hu hxs, ← σ.map_source_places,
    List.map_map, List.map_inj_left] at hmap
  have hi := hmap i (mem_places.mpr rfl)
  exact ⟨vs.get (i.cast hys), by simp, by rw [hi]; simp⟩

/-- The items of a kind are the same list before and after. -/
theorem filter_eq (σ : Reordering kind xs ys) (k : κ) :
    (ys.filter fun y => kind y == k) = xs.filter fun x => kind x == k := by
  have hys : (ys.filter fun y => kind y == k) = (places kind ys k).map ys.get :=
    filter_eq_map_places (List.map_id ys) rfl k
  have hxs : (xs.filter fun x => kind x == k) = (places kind xs k).map xs.get :=
    filter_eq_map_places (List.map_id xs) rfl k
  rw [hys, hxs, ← σ.map_source_places, List.map_map]
  exact List.map_congr_left fun i _ => σ.get_eq i

end Reordering

end Peephole
