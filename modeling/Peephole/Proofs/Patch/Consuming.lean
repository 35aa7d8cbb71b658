-- Patches that use up their matches. Where no instruction passes both the first rule of a pattern
-- and a later one, matches lie apart; where also what is put in passes no rule, an application
-- takes one match away and makes none. Then a patch can be applied to its own result only as often
-- as it had matches to begin with.
import Mathlib.Data.List.Nodup
import Mathlib.Tactic.Ring
import Peephole.Proofs.Patch.Outcomes

namespace Peephole

/-! ## Matches -/

namespace Pattern

variable {p : Pattern} {b d items : Body} {start count k o : Nat}

/-- A pattern fits where each of its rules finds an instruction that passes. -/
theorem fitsAt_iff_forall :
    p.FitsAt b o ↔
      ∀ n r, p.rules[n]? = some r → ∃ i, b[o + n]? = some i ∧ r.holds i = true := by
  constructor
  · rintro ⟨hinside, h⟩ n r hr
    obtain ⟨hn, _⟩ := List.getElem?_eq_some_iff.mp hr
    unfold length at hinside
    have hi : b[o + n]? = some b[o + n] := List.getElem?_eq_getElem (by omega)
    exact ⟨b[o + n], hi, h n r _ hr hi⟩
  · intro h
    have hpos := p.length_pos
    refine ⟨?_, ?_⟩
    · unfold length at hpos ⊢
      have hlast : p.rules[p.rules.length - 1]? = some p.rules[p.rules.length - 1] :=
        List.getElem?_eq_getElem (by omega)
      obtain ⟨i, hi, _⟩ := h _ _ hlast
      obtain ⟨hlt, _⟩ := List.getElem?_eq_some_iff.mp hi
      omega
    · intro n r i hr hi
      obtain ⟨j, hj, hholds⟩ := h n r hr
      rw [hi] at hj
      cases hj
      exact hholds

/-- Only what stands in a window decides whether a pattern fits there. -/
theorem fitsAt_congr (h : ∀ n < p.length, d[k + n]? = b[o + n]?) :
    p.FitsAt d k ↔ p.FitsAt b o := by
  rw [fitsAt_iff_forall, fitsAt_iff_forall]
  refine forall_congr' fun n => forall_congr' fun r => forall_congr' fun hr => ?_
  obtain ⟨hn, _⟩ := List.getElem?_eq_some_iff.mp hr
  rw [h n hn]

theorem fitsAt_splice_before (h : start ≤ b.length) (hk : k + p.length ≤ start) :
    p.FitsAt (b.splice start count items) k ↔ p.FitsAt b k := by
  apply fitsAt_congr
  intro n hn
  have houtside : ¬ (start ≤ k + n ∧ k + n < start + count) := by omega
  rw [← Body.getElem?_splice_shift h houtside, Body.shift, if_pos (by omega)]

theorem fitsAt_splice_after (h : start ≤ b.length) (hk : start ≤ k) :
    p.FitsAt (b.splice start count items) (k + items.length) ↔ p.FitsAt b (k + count) := by
  apply fitsAt_congr
  intro n hn
  have houtside : ¬ (start ≤ k + count + n ∧ k + count + n < start + count) := by omega
  have hindex : k + count + n + items.length - count = k + items.length + n := by omega
  rw [← Body.getElem?_splice_shift h houtside, Body.shift, if_neg (by omega), hindex]

/-- No instruction passes both the first rule and a later one. -/
def OpensOnce (p : Pattern) : Prop :=
  ∀ first ∈ p.rules.head?, ∀ r ∈ p.rules.tail, ∀ i, first.holds i = true → r.holds i = false

/-- Where the first rule opens a match, no other match goes on. -/
theorem OpensOnce.apart (hp : p.OpensOnce) (hk : p.FitsAt b k) (ho : p.FitsAt b o)
    (hlt : k < o) : k + p.length ≤ o := by
  by_contra hover
  have hpos := p.length_pos
  unfold length at hpos hover
  obtain ⟨n, rfl⟩ : ∃ n, o = k + (n + 1) := ⟨o - k - 1, by omega⟩
  obtain ⟨i, hi, hfirst⟩ := fitsAt_iff_forall.mp ho 0 _ (List.getElem?_eq_getElem hpos)
  obtain ⟨j, hj, hlater⟩ := fitsAt_iff_forall.mp hk (n + 1) _
    (List.getElem?_eq_getElem (by omega))
  rw [Nat.add_zero, hj] at hi
  cases hi
  have hhead : p.rules[0] ∈ p.rules.head? := by
    rw [List.head?_eq_getElem?, List.getElem?_eq_getElem hpos]
    rfl
  have htail : p.rules[n + 1] ∈ p.rules.tail := by
    rw [List.mem_iff_getElem?]
    exact ⟨n, by rw [List.getElem?_tail, List.getElem?_eq_getElem (by omega)]⟩
  rw [hp _ hhead _ htail _ hfirst] at hlater
  cases hlater

end Pattern

/-! ## The offsets of all matches -/

namespace Body

variable {b : Body} {p : Pattern} {k : Nat}

/-- The offsets at which a pattern fits, in increasing order. -/
def offsets (b : Body) (p : Pattern) : List Nat :=
  (List.range b.length).filter fun k : Nat => p.matchesAt b k

theorem mem_offsets : k ∈ b.offsets p ↔ p.FitsAt b k := by
  unfold offsets
  rw [List.mem_filter, List.mem_range, Pattern.matchesAt_iff, and_iff_right_iff_imp]
  intro h
  have := h.1
  have := p.length_pos
  omega

theorem nodup_offsets (b : Body) (p : Pattern) : (b.offsets p).Nodup :=
  List.nodup_range.filter _

end Body

/-! ## One application -/

namespace Patch

/-- A patch that takes something of a match away, puts in only what no rule lets pass, and cannot
have two matches over one another. -/
structure Consumes (p : Patch) : Prop where
  opens : p.pattern.OpensOnce
  removes : 0 < p.remove
  inserts : p.insert ≠ []
  fresh : ∀ i ∈ p.insert, ∀ r ∈ p.pattern.rules, r.holds i = false

namespace Consumes

variable {p : Patch} {b c : Body} {w : Nat}

/-- A match of the new body has none of what was put in. -/
theorem window_misses_inserted (hp : p.Consumes) {start k : Nat} (h : start ≤ b.length)
    (hk : p.pattern.FitsAt (b.splice start p.remove p.insert) k) :
    k + p.pattern.length ≤ start ∨ start + p.insert.length ≤ k := by
  by_contra hin
  have hpos := List.length_pos_iff.mpr hp.inserts
  -- Some index of the window is one of the inserted instructions, be it the first of the window or
  -- the first that was put in.
  obtain ⟨n, m, hn, hm, hindex⟩ :
      ∃ n m, n < p.pattern.length ∧ m < p.insert.length ∧ k + n = start + m := by
    by_cases hle : k ≤ start
    · exact ⟨start - k, 0, by omega, hpos, by omega⟩
    · exact ⟨0, k - start, p.pattern.length_pos, by omega, by omega⟩
  unfold Pattern.length at hn
  obtain ⟨i, hi, hholds⟩ := Pattern.fitsAt_iff_forall.mp hk n _ (List.getElem?_eq_getElem hn)
  rw [hindex, Body.getElem?_splice_inserted h hm] at hi
  rw [hp.fresh i (List.mem_of_getElem? hi) _ (List.getElem_mem hn)] at hholds
  cases hholds

/-- After the edit of the first match the pattern fits where it fitted after that match, and nowhere
else. -/
theorem fitsAt_splice_iff (hp : p.Consumes) (hw : p.pattern.FitsAt b w)
    (hmin : ∀ o < w, ¬ p.pattern.FitsAt b o) {k : Nat} :
    p.pattern.FitsAt (b.splice (w + p.keep) p.remove p.insert) k ↔
      ∃ o, w < o ∧ p.pattern.FitsAt b o ∧ k + p.remove = o + p.insert.length := by
  have hinside := hw.1
  have hcounts := p.fits
  have hremoves := hp.removes
  constructor
  · intro hk
    rcases hp.window_misses_inserted (by omega) hk with hbefore | hafter
    · rw [Pattern.fitsAt_splice_before (by omega) hbefore] at hk
      exact absurd hk (hmin k (by omega))
    · obtain ⟨m, rfl⟩ := Nat.exists_eq_add_of_le' (show p.insert.length ≤ k by omega)
      rw [Pattern.fitsAt_splice_after (by omega) (by omega)] at hk
      exact ⟨m + p.remove, by omega, hk, by omega⟩
  · rintro ⟨o, hlt, ho, hk⟩
    have hapart := hp.opens.apart hw ho hlt
    obtain ⟨m, rfl⟩ := Nat.exists_eq_add_of_le' (show p.remove ≤ o by omega)
    obtain rfl : k = m + p.insert.length := by omega
    rwa [Pattern.fitsAt_splice_after (by omega) (by omega)]

/-- The matches of a body are the first one and those that its edit leaves, moved back to where they
were. -/
theorem offsets_perm (hp : p.Consumes) (hw : p.pattern.FitsAt b w)
    (hmin : ∀ o < w, ¬ p.pattern.FitsAt b o) :
    (b.offsets p.pattern).Perm (w ::
      (Body.offsets (b.splice (w + p.keep) p.remove p.insert) p.pattern).map
        fun k => k + p.remove - p.insert.length) := by
  have hmem := fun k => Body.mem_offsets.trans (hp.fitsAt_splice_iff hw hmin (k := k))
  refine (List.perm_ext_iff_of_nodup (Body.nodup_offsets _ _) ?nodup).mpr ?same
  case nodup =>
    refine List.nodup_cons.mpr ⟨?_, (Body.nodup_offsets _ _).map_on ?_⟩
    · intro hin
      obtain ⟨k, hk, heq⟩ := List.mem_map.mp hin
      obtain ⟨o, _, _, _⟩ := (hmem k).mp hk
      omega
    · intro k hk m hm heq
      obtain ⟨_, _, _, _⟩ := (hmem k).mp hk
      obtain ⟨_, _, _, _⟩ := (hmem m).mp hm
      omega
  case same =>
    intro o
    rw [List.mem_cons, List.mem_map, Body.mem_offsets]
    constructor
    · intro ho
      rcases Nat.lt_trichotomy o w with hlt | rfl | hlt
      · exact absurd ho (hmin o hlt)
      · exact .inl rfl
      · have hapart := hp.opens.apart hw ho hlt
        have hcounts := p.fits
        exact .inr ⟨o + p.insert.length - p.remove, (hmem _).mpr ⟨o, hlt, ho, by omega⟩, by omega⟩
    · rintro (rfl | ⟨k, hk, rfl⟩)
      · exact hw
      · obtain ⟨o, _, ho, heq⟩ := (hmem k).mp hk
        rwa [show k + p.remove - p.insert.length = o by omega]

/-- An application leaves one match fewer. -/
theorem length_offsets_patched (hp : p.Consumes) (h : (p.apply b).applied = true) :
    ((p.apply b).patched.offsets p.pattern).length + 1 = (b.offsets p.pattern).length := by
  obtain ⟨w, hw, hmin, hz⟩ := match_of_applied h
  rw [patched_of_match hw hmin hz, (hp.offsets_perm hw hmin).length_eq, List.length_cons,
    List.length_map]

end Consumes

/-! ## Application again and again -/

/-- The patch is applied to a body some times in a row, each time to the result of the time before,
and leaves a body. -/
inductive Repeats (p : Patch) : Body → Nat → Body → Prop
  | none (b : Body) : Repeats p b 0 b
  | again {b c : Body} {n : Nat} (h : (p.apply b).applied = true)
      (rest : Repeats p (p.apply b).patched n c) : Repeats p b (n + 1) c

variable {p : Patch} {b c : Body} {n : Nat}

theorem Repeats.length_eq (h : p.Repeats b n c) :
    (c.length : Int) = b.length + n * p.lengthChange := by
  induction h with
  | none b => simp
  | @again b c n h rest ih =>
    rw [ih, length_patched_of_applied h]
    push_cast
    ring

namespace Consumes

/-- Each time takes one match away. -/
theorem length_offsets_of_repeats (hp : p.Consumes) (h : p.Repeats b n c) :
    (c.offsets p.pattern).length + n = (b.offsets p.pattern).length := by
  induction h with
  | none b => rfl
  | again h rest ih =>
    have := hp.length_offsets_patched h
    omega

/-- After some times the patch is not applied any more. -/
theorem exists_repeats_end (hp : p.Consumes) (b : Body) :
    ∃ n c, p.Repeats b n c ∧ (p.apply c).applied = false := by
  induction hm : (b.offsets p.pattern).length generalizing b with
  | zero =>
    refine ⟨0, b, .none b, ?_⟩
    by_contra happlied
    have := hp.length_offsets_patched (by simpa using happlied)
    omega
  | succ m ih =>
    cases happlied : (p.apply b).applied with
    | false => exact ⟨0, b, .none b, happlied⟩
    | true =>
      have hfewer := hp.length_offsets_patched happlied
      obtain ⟨n, c, hrest, hend⟩ := ih (p.apply b).patched (by omega)
      exact ⟨n + 1, c, .again happlied hrest, hend⟩

end Consumes

/-! ## What is removed does not show in the result -/

theorem splice_set {start count k : Nat} (h : start ≤ k ∧ k < start + count) (items : Body)
    (i : Instruction) : Body.splice (b.set k i) start count items = b.splice start count items := by
  unfold Body.splice
  rw [List.take_set_of_le h.1, List.drop_set_of_lt h.2]

/-- In the first match, an instruction that goes may be another one with the same ties: as long as
it passes its rule, the patch is applied there with the same result. -/
theorem patched_set (hp : p.pattern.OpensOnce) {w : Nat} (hw : p.pattern.FitsAt b w)
    (hmin : ∀ o < w, ¬ p.pattern.FitsAt b o)
    (hz : ¬ b.Hazardous (w + p.keep) (w + p.keep + p.remove)) {n : Nat} {i j : Instruction}
    (hn : p.keep ≤ n ∧ n < p.keep + p.remove) (hi : b[w + n]? = some i) (hties : j.ties = i.ties)
    (hj : ∀ r, p.pattern.rules[n]? = some r → r.holds j = true) :
    (p.apply (b.set (w + n) j)).status = .applied ∧
      (p.apply (b.set (w + n) j)).window? = some ⟨w, p.pattern.length⟩ ∧
      (p.apply (b.set (w + n) j)).patched = (p.apply b).patched := by
  obtain ⟨hlt, _⟩ := List.getElem?_eq_some_iff.mp hi
  have hfits : p.pattern.FitsAt (b.set (w + n) j) w := by
    rw [Pattern.fitsAt_iff_forall] at hw ⊢
    intro m r hr
    by_cases hm : n = m
    · subst hm
      exact ⟨j, List.getElem?_set_self hlt, hj r hr⟩
    · rw [List.getElem?_set_ne (by omega)]
      exact hw m r hr
  -- A match before the first one would lie apart from it, and there the body is as it was.
  have hleast : ∀ o < w, ¬ p.pattern.FitsAt (b.set (w + n) j) o := by
    intro o ho hfit
    have hapart := hp.apart hfit hfits ho
    refine hmin o ho ((Pattern.fitsAt_congr ?_).mp hfit)
    intro m hm
    rw [List.getElem?_set_ne (by omega)]
  have hsafe : ¬ Body.Hazardous (b.set (w + n) j) (w + p.keep) (w + p.keep + p.remove) := by
    rwa [Body.hazardous_of_ties_eq (Body.map_ties_set hi hties)]
  rw [patched_of_match hw hmin hz, apply_of_match hfits hleast hsafe]
  exact ⟨rfl, rfl, splice_set (by omega) _ _⟩

end Patch

end Peephole
