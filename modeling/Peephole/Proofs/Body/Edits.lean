-- The algebra of edits. A replacement is a removal and an insertion at one place, it can be taken
-- back, and edits of spans that lie apart may be made in either order: the one behind moves by what
-- the one before adds or takes away.
import Peephole.Data.Slice
import Peephole.Proofs.Body.Splice

namespace Peephole.Body

/-- A span that lies inside a body. -/
structure HasSpan (b : Body) (start count : Int) : Prop where
  start_nonneg : 0 ≤ start
  count_nonneg : 0 ≤ count
  stop_le : start + count ≤ b.length

variable {b items : Body}

/-! ## Parts of a body -/

/-- What stands before a span, in it and behind it. -/
theorem exists_parts {start count : Nat} (h : start + count ≤ b.length) :
    ∃ before span after : Body, b = before ++ (span ++ after) ∧ before.length = start ∧
      span.length = count := by
  refine ⟨b.take start, (b.drop start).take count, b.drop (start + count),
    (take_span_drop b start count).symm, ?_, ?_⟩
  · rw [List.length_take]
    omega
  · rw [List.length_take, List.length_drop]
    omega

theorem splice_parts {before span : Body} {start count : Nat} (hbefore : before.length = start)
    (hspan : span.length = count) (after items : Body) :
    splice (before ++ (span ++ after)) start count items = before ++ (items ++ after) := by
  have hdrop : (before ++ (span ++ after)).drop (start + count) = after := by
    rw [← List.append_assoc]
    exact List.drop_left' (by rw [List.length_append, hbefore, hspan])
  unfold splice
  rw [List.take_left' hbefore, hdrop, List.append_assoc]

theorem span_parts {before span : Body} {start count : Nat} (hbefore : before.length = start)
    (hspan : span.length = count) (after : Body) :
    ((before ++ (span ++ after)).drop start).take count = span := by
  rw [List.drop_left' hbefore, List.take_left' hspan]

/-- Putting back what stood in the span gives the body again. -/
theorem splice_back {start count : Nat} (h : start + count ≤ b.length) (items : Body) :
    (b.splice start count items).splice start items.length ((b.drop start).take count) = b := by
  obtain ⟨before, span, after, rfl, hbefore, hspan⟩ := exists_parts h
  rw [splice_parts hbefore hspan, splice_parts hbefore rfl, span_parts hbefore hspan]

/-- What stands before the place of an edit stays. -/
theorem splice_behind {before : Body} {place : Nat} (h : before.length = place) (rest : Body)
    (start count : Nat) (items : Body) :
    splice (before ++ rest) (place + start) count items =
      before ++ rest.splice start count items := by
  subst h
  unfold splice
  rw [Nat.add_assoc, List.take_length_add_append, List.drop_length_add_append, List.append_assoc,
    List.append_assoc, List.append_assoc]

/-- Of two spans that lie apart either may be replaced first. -/
theorem splice_splice {start count start' count' : Nat} (h : start + count ≤ start')
    (h' : start' ≤ b.length) (items items' : Body) :
    (b.splice start' count' items').splice start count items =
      (b.splice start count items).splice (start' + items.length - count) count' items' := by
  obtain ⟨n, rfl⟩ := Nat.exists_eq_add_of_le h
  have hin : start + count ≤ b.length := by omega
  obtain ⟨before, span, rest, rfl, hbefore, hspan⟩ := exists_parts hin
  have hfirst : (before ++ span).length = start + count := by
    rw [List.length_append, hbefore, hspan]
  have hnew : (before ++ items).length = start + items.length := by
    rw [List.length_append, hbefore]
  have hplace : start + count + n + items.length - count = start + items.length + n := by omega
  calc
    (splice (before ++ (span ++ rest)) (start + count + n) count' items').splice start count items
      = splice (before ++ (span ++ rest.splice n count' items')) start count items := by
        rw [← List.append_assoc, splice_behind hfirst, List.append_assoc]
    _ = before ++ (items ++ rest.splice n count' items') := splice_parts hbefore hspan _ _
    _ = splice (before ++ (items ++ rest)) (start + items.length + n) count' items' := by
        rw [← List.append_assoc, ← List.append_assoc, splice_behind hnew]
    _ = (splice (before ++ (span ++ rest)) start count items).splice
          (start + count + n + items.length - count) count' items' := by
        rw [splice_parts hbefore hspan, hplace]

/-! ## Slices -/

theorem filterMap_range_getElem? {α : Type} (xs : List α) (start count : Nat) :
    (List.range count).filterMap (fun k => xs[start + k]?) = (xs.drop start).take count := by
  induction count with
  | zero => rfl
  | succ n ih =>
    rw [List.range_succ, List.filterMap_append, ih, List.take_add_one, List.getElem?_drop]
    cases hx : xs[start + n]? <;> simp [hx]

/-- The slice from the start of a span to its end is the span. -/
theorem select?_span {start count : Int} (h : b.HasSpan start count) :
    (Slice.mk (some start) (some (start + count)) none).select? b =
      some ((b.drop start.toNat).take count.toNat) := by
  obtain ⟨hstart, hcount, hstop⟩ := h
  have hfirst : Slice.clamp b.length 0 b.length start = start := by
    unfold Slice.clamp
    rw [if_neg (by omega)]
    omega
  have hend : Slice.clamp b.length 0 b.length (start + count) = start + count := by
    unfold Slice.clamp
    rw [if_neg (by omega)]
    omega
  have hbounds : (Slice.mk (some start) (some (start + count)) none).bounds b.length 1 =
      (start, start + count) := by
    simp only [Slice.bounds, Int.zero_lt_one, if_true, Option.map_some, Option.getD_some, hfirst,
      hend]
  have hsteps : Slice.count start (start + count) 1 = count.toNat := by
    unfold Slice.count
    rw [if_pos (by omega)]
    split <;> omega
  have hplace : ∀ k : Nat, (start + k * 1).toNat = start.toNat + k := by omega
  unfold Slice.select?
  simp only [Option.getD_none, hbounds, hsteps, hplace, filterMap_range_getElem?]
  rfl

/-! ## Edits -/

/-- A replacement is made where the span lies inside the body, and elsewhere it is refused whatever
is to be put in. -/
theorem replace_cases (b : Body) (start count : Int) :
    (b.HasSpan start count ∧
      ∀ items, b.replace start count items = .ok (b.splice start.toNat count.toNat items)) ∨
    ((start < 0 ∨ (b.length : Int) < start ∨ count < 0 ∨ (b.length : Int) < start + count) ∧
      ∃ f, ∀ items, b.replace start count items = .error f) := by
  by_cases hstart : start < 0 ∨ (b.length : Int) < start
  · exact .inr ⟨by omega, .badPosition start b.length, fun items => if_pos hstart⟩
  · by_cases hcount : count < 0 ∨ (b.length : Int) < start + count
    · refine .inr ⟨by omega, .badCount start count, fun items => ?_⟩
      unfold replace
      rw [if_neg hstart, if_pos hcount]
    · refine .inl ⟨⟨by omega, by omega, by omega⟩, fun items => ?_⟩
      exact replace_eq_ok b start count items (by omega) (by omega) (by omega)

theorem HasSpan.replace {start count : Int} (h : b.HasSpan start count) (items : Body) :
    b.replace start count items = .ok (b.splice start.toNat count.toNat items) :=
  replace_eq_ok b start count items h.start_nonneg h.count_nonneg h.stop_le

theorem HasSpan.toNat_add_le {start count : Int} (h : b.HasSpan start count) :
    start.toNat + count.toNat ≤ b.length := by
  obtain ⟨hstart, hcount, hstop⟩ := h
  omega

/-- Spans of the new body are told by its length. -/
theorem HasSpan.of_splice {start count place n : Int} (h : b.HasSpan start count)
    (hplace : 0 ≤ place) (hn : 0 ≤ n) (hstop : place + n ≤ b.length + items.length - count) :
    (b.splice start.toNat count.toNat items).HasSpan place n := by
  have hadd := h.toNat_add_le
  have hcount := h.count_nonneg
  refine ⟨hplace, hn, ?_⟩
  rw [length_splice hadd]
  omega

theorem replace_isError_iff (b : Body) (start count : Int) (items : Body) :
    (∃ f, b.replace start count items = .error f) ↔
      start < 0 ∨ (b.length : Int) < start ∨ count < 0 ∨ (b.length : Int) < start + count := by
  rcases replace_cases b start count with ⟨⟨h₀, h₁, h₂⟩, hmade⟩ | ⟨hout, f, hrefused⟩
  · simp only [hmade, reduceCtorEq, exists_false, false_iff]
    omega
  · exact iff_of_true ⟨f, hrefused items⟩ hout

/-- A replacement is a removal and an insertion at its place, also when it is refused. -/
theorem replace_eq_remove_insert (b : Body) (start count : Int) (items : Body) :
    b.replace start count items = (do (← b.remove start count).insert start items) := by
  unfold remove
  rcases replace_cases b start count with ⟨h, hmade⟩ | ⟨_, f, hrefused⟩
  · have hadd := h.toNat_add_le
    have hstop := h.stop_le
    have hgap : (b.splice start.toNat count.toNat []).HasSpan start 0 := by
      refine h.of_splice h.start_nonneg (Int.le_refl 0) ?_
      rw [List.length_nil]
      omega
    rw [hmade, hmade]
    refine Eq.trans ?_ (hgap.replace items).symm
    rw [Int.toNat_zero, splice_removed (by omega)]
  · rw [hrefused, hrefused]
    rfl

/-- A replacement is taken back by what stood in the span. -/
theorem HasSpan.replace_back {start count : Int} (h : b.HasSpan start count) (items : Body) :
    (b.replace start count items >>= fun c =>
      c.replace start items.length ((b.drop start.toNat).take count.toNat)) = .ok b := by
  have hstop := h.stop_le
  have hnew : (b.splice start.toNat count.toNat items).HasSpan start items.length :=
    h.of_splice h.start_nonneg (by omega) (by omega)
  rw [h.replace]
  refine (hnew.replace _).trans ?_
  rw [Int.toNat_natCast, splice_back h.toNat_add_le]

/-- Spans that lie apart may be replaced in either order. -/
theorem HasSpan.replace_replace {start count start' count' : Int} (h : b.HasSpan start count)
    (h' : b.HasSpan start' count') (hapart : start + count ≤ start') (items items' : Body) :
    ∃ both, (do (← b.replace start' count' items').replace start count items) = .ok both ∧
      (do (← b.replace start count items).replace (start' + items.length - count) count' items') =
        .ok both := by
  have hstart := h.start_nonneg
  have hcount := h.count_nonneg
  have hcount' := h'.count_nonneg
  have hstop' := h'.stop_le
  have hbefore : (b.splice start'.toNat count'.toNat items').HasSpan start count :=
    h'.of_splice hstart hcount (by omega)
  have hbehind : (b.splice start.toNat count.toNat items).HasSpan (start' + items.length - count)
      count' := h.of_splice (by omega) hcount' (by omega)
  have hplace : (start' + items.length - count).toNat =
      start'.toNat + items.length - count.toNat := by omega
  refine ⟨(b.splice start'.toNat count'.toNat items').splice start.toNat count.toNat items, ?_, ?_⟩
  · rw [h'.replace]
    exact hbefore.replace items
  · rw [h.replace]
    refine (hbehind.replace items').trans ?_
    rw [hplace, ← splice_splice (by omega) (by omega)]

/-! ## The laws -/

/-- A replacement is refused exactly when its span does not lie inside the body. It is a removal and
an insertion at its place, and what stood in the span, put back, gives the body again. Of two spans
that lie apart either may be replaced first; the one behind moves by what the other changes. -/
theorem edits_can_be_split_taken_back_and_swapped (b : Body) :
    (∀ (start count : Int) (items : Body),
      ((∃ f, b.replace start count items = .error f) ↔
        start < 0 ∨ (b.length : Int) < start ∨ count < 0 ∨ (b.length : Int) < start + count) ∧
      b.replace start count items = (do (← b.remove start count).insert start items) ∧
      (b.HasSpan start count →
        ∃ old, (Slice.mk (some start) (some (start + count)) none).select? b = some old ∧
          (do (← b.replace start count items).replace start items.length old) = .ok b)) ∧
    ∀ (start count start' count' : Int) (items items' : Body), b.HasSpan start count →
      b.HasSpan start' count' → start + count ≤ start' →
      ∃ both, (do (← b.replace start' count' items').replace start count items) = .ok both ∧
        (do (← b.replace start count items).replace (start' + items.length - count) count' items') =
          .ok both := by
  constructor
  · intro start count items
    refine ⟨replace_isError_iff b start count items,
      replace_eq_remove_insert b start count items, ?_⟩
    intro h
    exact ⟨_, select?_span h, h.replace_back items⟩
  · intro start count start' count' items items' h h' hapart
    exact h.replace_replace h' hapart items items'

/-- One instruction of four is replaced by two, and in the gap right behind it one is put in. -/
theorem two_edits_that_meet :
    let nop : Instruction := ⟨.nop, none, [], [], rfl⟩
    let null : Instruction := ⟨.ldnull, none, [], [], rfl⟩
    let pop : Instruction := ⟨.pop, none, [], [], rfl⟩
    let ret : Instruction := ⟨.ret, none, [], [], rfl⟩
    let b : Body := [nop, null, pop, ret]
    b.HasSpan 1 1 ∧ b.HasSpan 2 0 ∧
      (∃ old, (Slice.mk (some 1) (some 2) none).select? b = some old ∧
        (do (← b.replace 1 1 [nop, nop]).replace 1 2 old) = .ok b) ∧
      (do (← b.replace 1 1 [nop, nop]).replace 3 0 [null]) =
        .ok [nop, nop, nop, null, pop, ret] ∧
      (do (← b.replace 2 0 [null]).replace 1 1 [nop, nop]) =
        .ok [nop, nop, nop, null, pop, ret] := by
  intro nop null pop ret b
  have hfirst : b.HasSpan 1 1 := ⟨by decide, by decide, by decide⟩
  have hsecond : b.HasSpan 2 0 := ⟨by decide, by decide, by decide⟩
  obtain ⟨hone, htwo⟩ := edits_can_be_split_taken_back_and_swapped b
  obtain ⟨both, hbehind, hbefore⟩ := htwo 1 1 2 0 [nop, nop] [null] hfirst hsecond (by decide)
  have hboth : both = [nop, nop, nop, null, pop, ret] := by
    cases hbehind
    rfl
  subst hboth
  exact ⟨hfirst, hsecond, (hone 1 1 [nop, nop]).2.2 hfirst, hbefore, hbehind⟩

end Peephole.Body
