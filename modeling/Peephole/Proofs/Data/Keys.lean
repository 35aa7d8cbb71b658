-- Keys in the order in which they first come. Bindings made one after the other have their keys in
-- this order, and two tables that answer alike differ in it alone.
import Mathlib.Data.List.Nodup
import Peephole.Data.OrderedMap

namespace Peephole

/-! ## Without repetition -/

theorem nodup_eraseDups {α : Type} [DecidableEq α] (xs : List α) : xs.eraseDups.Nodup := by
  match xs with
  | [] => exact List.nodup_nil
  | x :: xs =>
    rw [List.eraseDups_cons, List.nodup_cons]
    refine ⟨?_, nodup_eraseDups _⟩
    simp [List.mem_eraseDups]
termination_by xs.length
decreasing_by
  rw [List.length_cons]
  exact Nat.lt_succ_of_le (List.length_filter_le _ _)

theorem eraseDups_eq_self {α : Type} [DecidableEq α] {xs : List α} (h : xs.Nodup) :
    xs.eraseDups = xs := by
  induction xs with
  | nil => rfl
  | cons x xs ih =>
    obtain ⟨hx, hxs⟩ := List.nodup_cons.mp h
    have hfilter : xs.filter (fun y => !y == x) = xs := by
      rw [List.filter_eq_self]
      intro y hy
      have hne : y ≠ x := fun hyx => hx (hyx ▸ hy)
      simpa using hne
    rw [List.eraseDups_cons, hfilter, ih hxs]

/-- An item that is there already adds nothing. -/
theorem eraseDups_append_cons {α : Type} [DecidableEq α] {x : α} {xs : List α} (h : x ∈ xs)
    (ys : List α) : (xs ++ x :: ys).eraseDups = (xs ++ ys).eraseDups := by
  rw [List.eraseDups_append, List.eraseDups_append]
  congr 2
  simp [List.removeAll, h]

namespace OrderedMap

variable {κ ν : Type} [DecidableEq κ]

/-! ## Bindings -/

/-- A key that is new is bound at the end. -/
theorem entries_insert_of_not_mem {m : OrderedMap κ ν} {k : κ} (h : k ∉ m.keys) (v : ν) :
    (m.insert k v).entries = m.entries ++ [(k, v)] := by
  unfold insert
  rw [dif_neg h]

/-- Keys stand in the order in which they were first bound. -/
theorem keys_insertAll (m : OrderedMap κ ν) (es : List (κ × ν)) :
    (m.insertAll es).keys = (m.keys ++ es.map Prod.fst).eraseDups := by
  induction es generalizing m with
  | nil =>
    rw [List.map_nil, List.append_nil, eraseDups_eq_self m.keys_nodup]
    rfl
  | cons e es ih =>
    obtain ⟨k, v⟩ := e
    have hstep := ih (m.insert k v)
    rw [keys_insert] at hstep
    refine hstep.trans ?_
    split
    · rename_i hk
      rw [List.map_cons, eraseDups_append_cons hk]
    · rw [List.map_cons, List.append_assoc, List.singleton_append]

/-- What a key is bound to was bound before, or is in one of the pairs. -/
theorem mem_of_find?_insertAll {m : OrderedMap κ ν} {es : List (κ × ν)} {k : κ} {v : ν}
    (h : (m.insertAll es).find? k = some v) : (k, v) ∈ m.entries ++ es := by
  rw [find?_insertAll] at h
  rcases Option.or_eq_some_iff.mp h with hlast | ⟨-, hbefore⟩
  · obtain ⟨before, after, hes, -⟩ := List.lookup_eq_some_iff.mp hlast
    refine List.mem_append_right _ ?_
    rw [← List.mem_reverse, hes]
    simp
  · exact List.mem_append_left _ (find?_eq_some_iff.mp hbefore)

/-- Tables with distinct keys that answer alike have the same entries. -/
theorem perm_of_lookup_eq {es fs : List (κ × ν)} (hes : (es.map Prod.fst).Nodup)
    (hfs : (fs.map Prod.fst).Nodup) (h : ∀ k, es.lookup k = fs.lookup k) : es.Perm fs := by
  rw [List.perm_ext_iff_of_nodup hes.of_map hfs.of_map]
  rintro ⟨k, v⟩
  rw [← lookup_eq_some_iff hes, ← lookup_eq_some_iff hfs, h]

end OrderedMap

end Peephole
