-- Bodies with a span replaced. What stood outside the span stands in the new body too, at
-- a shifted index, and between its two parts stands what was put in.
import Peephole.Proofs.Body.Tables

namespace Peephole.Body

variable {b items : Body} {start count : Nat}

/-- Where an instruction outside a span stands when the span is replaced. -/
def shift (start count inserted k : Nat) : Nat := if k < start then k else k + inserted - count

/-! ## Indices -/

theorem take_span_drop (b : Body) (start count : Nat) :
    b.take start ++ ((b.drop start).take count ++ b.drop (start + count)) = b := by
  rw [← List.drop_drop, List.take_append_drop, List.take_append_drop]

theorem mem_span {i : Instruction} (h : i ∈ (b.drop start).take count) :
    ∃ k, start ≤ k ∧ k < start + count ∧ b[k]? = some i := by
  obtain ⟨k, hk⟩ := List.mem_iff_getElem?.mp h
  rw [List.getElem?_take] at hk
  split at hk
  · rw [List.getElem?_drop] at hk
    exact ⟨start + k, by omega, by omega, hk⟩
  · cases hk

theorem length_splice (h : start + count ≤ b.length) :
    (b.splice start count items).length = b.length + items.length - count := by
  unfold splice
  rw [List.length_append, List.length_append, List.length_take, List.length_drop]
  omega

/-- What stands outside the span is moved by the shift. -/
theorem getElem?_splice_shift (h : start ≤ b.length) {k : Nat}
    (hk : ¬ (start ≤ k ∧ k < start + count)) :
    (b.splice start count items)[shift start count items.length k]? = b[k]? := by
  have ht : (b.take start).length = start := by rw [List.length_take]; omega
  have hti : (b.take start ++ items).length = start + items.length := by
    rw [List.length_append, ht]
  unfold splice shift
  split
  · rename_i hlt
    rw [List.getElem?_append_left (by omega), List.getElem?_append_left (by omega),
      List.getElem?_take_of_lt hlt]
  · rw [List.getElem?_append_right (by omega), List.getElem?_drop, hti]
    congr 1
    omega

theorem getElem?_splice_inserted (h : start ≤ b.length) {k : Nat} (hk : k < items.length) :
    (b.splice start count items)[start + k]? = items[k]? := by
  have ht : (b.take start).length = start := by rw [List.length_take]; omega
  unfold splice
  rw [List.getElem?_append_left (by rw [List.length_append]; omega),
    List.getElem?_append_right (by omega), ht, Nat.add_sub_cancel_left]

/-- Every index of the new body comes from one outside the span or from what is put in. -/
theorem splice_index_cases (start count : Nat) (items : Body) (m : Nat) :
    (∃ k, ¬ (start ≤ k ∧ k < start + count) ∧ m = shift start count items.length k) ∨
      ∃ k, k < items.length ∧ m = start + k := by
  unfold shift
  by_cases h₀ : m < start
  · exact Or.inl ⟨m, by omega, by rw [if_pos h₀]⟩
  · by_cases h₁ : m < start + items.length
    · exact Or.inr ⟨m - start, by omega, by omega⟩
    · refine Or.inl ⟨m + count - items.length, by omega, ?_⟩
      rw [if_neg (by omega)]
      omega

/-- Something is true of an instruction of the new body when it is true of one that stays or
of one that is put in. -/
theorem exists_splice_iff (h : start ≤ b.length) {m : Nat} {P : Instruction → Prop} :
    (∃ i, (b.splice start count items)[m]? = some i ∧ P i) ↔
      (∃ k, ¬ (start ≤ k ∧ k < start + count) ∧ m = shift start count items.length k ∧
        ∃ i, b[k]? = some i ∧ P i) ∨
      ∃ k, m = start + k ∧ ∃ i, items[k]? = some i ∧ P i := by
  constructor
  · rintro ⟨i, hi, hP⟩
    rcases splice_index_cases start count items m with ⟨k, hk, rfl⟩ | ⟨k, hk, rfl⟩
    · rw [getElem?_splice_shift h hk] at hi
      exact Or.inl ⟨k, hk, rfl, i, hi, hP⟩
    · rw [getElem?_splice_inserted h hk] at hi
      exact Or.inr ⟨k, rfl, i, hi, hP⟩
  · rintro (⟨k, hk, rfl, i, hi, hP⟩ | ⟨k, rfl, i, hi, hP⟩)
    · exact ⟨i, by rw [getElem?_splice_shift h hk]; exact hi, hP⟩
    · obtain ⟨hk, _⟩ := List.getElem?_eq_some_iff.mp hi
      exact ⟨i, by rw [getElem?_splice_inserted h hk]; exact hi, hP⟩

/-- A replacement inside a window leaves what stands before the window and after it. -/
theorem splice_keeps_outside (b items : Body) {low start count high : Nat} (h₀ : low ≤ start)
    (h₁ : start + count ≤ high) :
    ∃ inner, b.splice start count items = b.take low ++ inner ++ b.drop high := by
  obtain ⟨k, rfl⟩ := Nat.exists_eq_add_of_le h₀
  obtain ⟨n, rfl⟩ := Nat.exists_eq_add_of_le h₁
  have hafter : b.drop (low + k + count) =
      (b.drop (low + k + count)).take n ++ b.drop (low + k + count + n) := by
    rw [← List.drop_drop (i := n), List.take_append_drop]
  refine ⟨(b.drop low).take k ++ items ++ (b.drop (low + k + count)).take n, ?_⟩
  unfold splice
  conv => lhs; rw [List.take_add, hafter]
  simp only [List.append_assoc]

/-! ## Two edits at one place -/

theorem splice_nothing (b : Body) (start : Nat) : b.splice start 0 [] = b := by
  unfold splice
  rw [List.append_nil, Nat.add_zero, List.take_append_drop]

/-- A removal and a replacement at its place make one replacement. -/
theorem splice_after_removal (h : start ≤ b.length) (m n : Nat) (items : Body) :
    (b.splice start m []).splice start n items = b.splice start (m + n) items := by
  have ht : (b.take start).length = start := by rw [List.length_take]; omega
  have hdrop : (b.take start ++ b.drop (start + m)).drop (start + n) =
      (b.drop (start + m)).drop n := by
    rw [List.drop_append, List.drop_eq_nil_of_le (by omega), List.nil_append, ht,
      Nat.add_sub_cancel_left]
  unfold splice
  rw [List.append_nil, List.take_left' ht, hdrop, List.drop_drop, Nat.add_assoc]

/-- A span removed and instructions put in at its place make one replacement. -/
theorem splice_removed (h : start ≤ b.length) :
    (b.splice start count []).splice start 0 items = b.splice start count items :=
  splice_after_removal h count 0 items

/-! ## Tables -/

theorem indicesWhere_splice (h : start ≤ b.length) (p : Instruction → Bool) :
    (b.splice start count items).indicesWhere p =
      indicesWhere (b.take start) p ++ (items.indicesWhere p).map (start + ·) ++
        (indicesWhere (b.drop (start + count)) p).map (start + items.length + ·) := by
  have ht : (b.take start).length = start := by rw [List.length_take]; omega
  unfold splice
  rw [indicesWhere_append, indicesWhere_append, List.length_append, ht]

theorem map_shift_take (p : Instruction → Bool) (inserted : Nat) :
    (indicesWhere (b.take start) p).map (shift start count inserted) =
      indicesWhere (b.take start) p := by
  rw [List.map_congr_left (g := id), List.map_id]
  intro k hk
  obtain ⟨i, hi, _⟩ := mem_indicesWhere.mp hk
  obtain ⟨hlt, _⟩ := List.getElem?_eq_some_iff.mp hi
  rw [List.length_take] at hlt
  unfold shift
  rw [if_pos (by omega)]
  rfl

/-- When nothing in the span passes the test, the shift moves the table. -/
theorem map_shift_indicesWhere (h : start + count ≤ b.length) {p : Instruction → Bool}
    (hspan : ∀ i ∈ (b.drop start).take count, p i = false) (inserted : Nat) :
    (b.indicesWhere p).map (shift start count inserted) =
      indicesWhere (b.take start) p ++
        (indicesWhere (b.drop (start + count)) p).map (start + inserted + ·) := by
  have ht : (b.take start).length = start := by rw [List.length_take]; omega
  have hs : ((b.drop start).take count).length = count := by
    rw [List.length_take, List.length_drop]
    omega
  conv => lhs; rw [← take_span_drop b start count]
  rw [indicesWhere_append, indicesWhere_append, indicesWhere_eq_nil_iff.mpr hspan, List.nil_append,
    List.map_append, map_shift_take, ht, hs, List.map_map, List.map_map]
  congr 1
  apply List.map_congr_left
  intro k _
  simp only [Function.comp_apply]
  unfold shift
  rw [if_neg (by omega)]
  omega

/-- When nothing that goes or comes passes the test, the new table is the shifted one. -/
theorem indicesWhere_splice_shift (h : start + count ≤ b.length) {p : Instruction → Bool}
    (hspan : ∀ i ∈ (b.drop start).take count, p i = false) (hitems : ∀ i ∈ items, p i = false) :
    (b.splice start count items).indicesWhere p =
      (b.indicesWhere p).map (shift start count items.length) := by
  rw [indicesWhere_splice (by omega), map_shift_indicesWhere h hspan,
    indicesWhere_eq_nil_iff.mpr hitems, List.map_nil, List.append_nil]

end Peephole.Body
