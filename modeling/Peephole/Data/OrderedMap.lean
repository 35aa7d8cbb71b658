-- Bindings that remember the order in which their keys first came: member tables and
-- stores of bodies are of this kind.

namespace Peephole

/-- Bindings with distinct keys, the key bound first standing first. -/
structure OrderedMap (κ ν : Type) where
  entries : List (κ × ν)
  distinct : (entries.map Prod.fst).Nodup

namespace OrderedMap

variable {κ ν : Type}

/-- Two maps with the same entries in the same order are the same map. -/
@[ext] theorem ext {m n : OrderedMap κ ν} (h : m.entries = n.entries) : m = n := by
  cases m; cases n; cases h; rfl

/-! ## Looking up -/

/-- The map that binds nothing. -/
def empty : OrderedMap κ ν := ⟨[], List.nodup_nil⟩

/-- The keys, oldest first. -/
def keys (m : OrderedMap κ ν) : List κ := m.entries.map Prod.fst

theorem keys_nodup (m : OrderedMap κ ν) : m.keys.Nodup := m.distinct

/-- The number of keys. -/
def size (m : OrderedMap κ ν) : Nat := m.entries.length

/-- True of a map that binds nothing. -/
def isEmpty (m : OrderedMap κ ν) : Bool := m.entries.isEmpty

variable [DecidableEq κ]

/-- The value bound to a key. -/
def find? (m : OrderedMap κ ν) (k : κ) : Option ν := m.entries.lookup k

/-- Whether a key is bound. -/
def contains (m : OrderedMap κ ν) (k : κ) : Bool := decide (k ∈ m.keys)

theorem contains_iff (m : OrderedMap κ ν) (k : κ) : m.contains k = true ↔ k ∈ m.keys := by
  simp [contains]

theorem lookup_isSome_iff (es : List (κ × ν)) (k : κ) :
    (es.lookup k).isSome = true ↔ k ∈ es.map Prod.fst := by
  rw [List.lookup_isSome_iff, List.mem_map]
  exact exists_congr fun e => and_congr_right fun _ => beq_iff_eq.trans eq_comm

theorem find?_isSome_iff (m : OrderedMap κ ν) (k : κ) :
    (m.find? k).isSome = true ↔ k ∈ m.keys := lookup_isSome_iff m.entries k

theorem find?_eq_none_iff (m : OrderedMap κ ν) (k : κ) : m.find? k = none ↔ k ∉ m.keys := by
  rw [← find?_isSome_iff]
  cases m.find? k <;> simp

theorem lookup_eq_some_iff {es : List (κ × ν)} (hdistinct : (es.map Prod.fst).Nodup) {k : κ}
    {v : ν} : es.lookup k = some v ↔ (k, v) ∈ es := by
  induction es with
  | nil => simp
  | cons e es ih =>
    obtain ⟨a, w⟩ := e
    obtain ⟨hfirst, hdistinct⟩ := List.nodup_cons.mp hdistinct
    by_cases hk : k = a
    · subst hk
      have hnot : (k, v) ∉ es := fun h => hfirst (List.mem_map.mpr ⟨_, h, rfl⟩)
      simp [hnot, eq_comm]
    · simp [List.lookup_cons, beq_eq_false_iff_ne.mpr hk, hk, ih hdistinct]

/-- A value is found under a key exactly when the two are an entry. -/
theorem find?_eq_some_iff {m : OrderedMap κ ν} {k : κ} {v : ν} :
    m.find? k = some v ↔ (k, v) ∈ m.entries := lookup_eq_some_iff m.distinct

/-! ## Binding -/

/-- The entries with the value at a key replaced where the key stands. -/
def replaceAt (es : List (κ × ν)) (k : κ) (v : ν) : List (κ × ν) :=
  es.map fun e => if e.1 = k then (k, v) else e

theorem replaceAt_keys (es : List (κ × ν)) (k : κ) (v : ν) :
    (replaceAt es k v).map Prod.fst = es.map Prod.fst := by
  simp only [replaceAt, List.map_map]
  apply List.map_congr_left
  intro e _
  by_cases h : e.1 = k <;> simp [h]

/-- Binds a key: a known key keeps its place and takes the new value, a new one comes last. -/
def insert (m : OrderedMap κ ν) (k : κ) (v : ν) : OrderedMap κ ν :=
  if h : k ∈ m.keys then
    ⟨replaceAt m.entries k v, by rw [replaceAt_keys]; exact m.distinct⟩
  else
    ⟨m.entries ++ [(k, v)], by
      rw [List.map_append, List.nodup_append]
      refine ⟨m.distinct, by simp, ?_⟩
      intro a ha b hb hab
      rw [List.map_singleton, List.mem_singleton] at hb
      subst hb; subst hab
      exact h ha⟩

/-- Binding a known key leaves the keys as they are, and a new key is added at the end. -/
theorem keys_insert (m : OrderedMap κ ν) (k : κ) (v : ν) :
    (m.insert k v).keys = if k ∈ m.keys then m.keys else m.keys ++ [k] := by
  unfold insert
  split
  · rename_i h; simp [keys, replaceAt_keys]
  · simp [keys]

theorem lookup_replaceAt (es : List (κ × ν)) (k j : κ) (v : ν) (h : k ∈ es.map Prod.fst) :
    (replaceAt es k v).lookup j = if j = k then some v else es.lookup j := by
  induction es with
  | nil => simp at h
  | cons e es ih =>
    obtain ⟨a, w⟩ := e
    by_cases ha : a = k
    · subst ha
      by_cases hj : j = a
      · subst hj; simp [replaceAt]
      · by_cases hm : a ∈ es.map Prod.fst
        · have := ih hm
          simp only [replaceAt] at this
          simp [replaceAt, List.lookup_cons, beq_eq_false_iff_ne.mpr hj, this, hj]
        · have hs : (es.map fun e => if e.1 = a then (a, v) else e) = es := by
            have : (es.map fun e => if e.1 = a then (a, v) else e) = es.map id := by
              apply List.map_congr_left
              intro e he
              have : e.1 ≠ a := fun hx => hm (hx ▸ List.mem_map_of_mem he)
              simp [this]
            simpa using this
          simp [replaceAt, List.lookup_cons, beq_eq_false_iff_ne.mpr hj, hj, hs]
    · have hm : k ∈ es.map Prod.fst := by
        rcases List.mem_cons.mp h with hh | hh
        · exact absurd hh.symm ha
        · exact hh
      have := ih hm
      simp only [replaceAt] at this
      by_cases hj : j = a
      · subst hj; simp [replaceAt, ha]
      · simp [replaceAt, List.lookup_cons, beq_eq_false_iff_ne.mpr hj, ha, this]

/-- A binding is found under its own key, and every other key keeps what it had. -/
theorem find?_insert (m : OrderedMap κ ν) (k j : κ) (v : ν) :
    (m.insert k v).find? j = if j = k then some v else m.find? j := by
  unfold insert
  split
  · rename_i h
    exact lookup_replaceAt m.entries k j v h
  · rename_i h
    simp only [find?]
    rw [List.lookup_append]
    by_cases hj : j = k
    · subst hj
      have : m.entries.lookup j = none := (find?_eq_none_iff m j).mpr h
      simp [this]
    · simp [hj, List.lookup_cons, beq_eq_false_iff_ne.mpr hj]

/-! ## Equality -/

theorem eq_of_lookup_eq {es fs : List (κ × ν)} (hkeys : es.map Prod.fst = fs.map Prod.fst)
    (hdistinct : (es.map Prod.fst).Nodup) (h : ∀ k, es.lookup k = fs.lookup k) : es = fs := by
  induction es generalizing fs with
  | nil => exact (List.map_eq_nil_iff.mp hkeys.symm).symm
  | cons e es ih =>
    obtain ⟨a, v⟩ := e
    cases fs with
    | nil => cases hkeys
    | cons f fs =>
      obtain ⟨b, w⟩ := f
      obtain ⟨rfl, hrest⟩ := List.cons.inj hkeys
      obtain ⟨hfirst, hdistinct⟩ := List.nodup_cons.mp hdistinct
      have hv := h a
      rw [List.lookup_cons_self, List.lookup_cons_self] at hv
      rw [Option.some.inj hv, ih hrest hdistinct]
      intro k
      by_cases hk : k = a
      · subst hk
        have hes := mt (lookup_isSome_iff es k).mp hfirst
        have hfs := mt (lookup_isSome_iff fs k).mp (hrest ▸ hfirst)
        rw [Option.not_isSome_iff_eq_none.mp hes, Option.not_isSome_iff_eq_none.mp hfs]
      · have hk' := h k
        rw [List.lookup_cons, List.lookup_cons, beq_eq_false_iff_ne.mpr hk] at hk'
        exact hk'

/-- Maps with the same keys in the same order and the same values are the same map. -/
theorem ext_find? {m n : OrderedMap κ ν} (hkeys : m.keys = n.keys)
    (h : ∀ k, m.find? k = n.find? k) : m = n :=
  ext (eq_of_lookup_eq hkeys m.distinct h)

/-! ## Binding many -/

/-- Binds a list of pairs in order. -/
def insertAll (m : OrderedMap κ ν) (es : List (κ × ν)) : OrderedMap κ ν :=
  es.foldl (fun m e => m.insert e.1 e.2) m

/-- The map that a list of pairs makes, a later pair winning over an earlier one. -/
def ofList (es : List (κ × ν)) : OrderedMap κ ν := empty.insertAll es

/-- Of the pairs with a key the last counts, and a key that has none keeps what it had. -/
theorem find?_insertAll (m : OrderedMap κ ν) (es : List (κ × ν)) (k : κ) :
    (m.insertAll es).find? k = (es.reverse.lookup k).or (m.find? k) := by
  induction es generalizing m with
  | nil => rfl
  | cons e es ih =>
    obtain ⟨a, v⟩ := e
    have hstep := ih (m.insert a v)
    rw [find?_insert] at hstep
    rw [List.reverse_cons, List.lookup_append, Option.or_assoc]
    refine hstep.trans (congrArg _ ?_)
    by_cases hk : k = a
    · simp [hk]
    · simp [hk, List.lookup_cons, beq_eq_false_iff_ne.mpr hk]

end OrderedMap

end Peephole
