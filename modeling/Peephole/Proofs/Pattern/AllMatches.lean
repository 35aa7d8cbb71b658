-- All matches of a pattern. The search goes from match to match until a scan finds nothing, and it
-- ends because no match is empty. No match is missed but those that overlap one before them, and
-- however else one chooses matches that lie apart, one does not find more of them.
import Mathlib.Data.List.Perm.Subperm
import Peephole.Proofs.Pattern.Match

namespace Peephole

/-! ## Windows -/

namespace Window

theorem stop_natCast (o n : Nat) : stop ⟨o, n⟩ = (o + n : Nat) := (Int.natCast_add o n).symm

theorem contains_iff {w : Window} {k : Int} : w.contains k = true ↔ w.start ≤ k ∧ k < w.stop := by
  unfold contains
  rw [Bool.and_eq_true, decide_eq_true_eq, decide_eq_true_eq]

/-- Two windows without a common index. -/
def Apart (v w : Window) : Prop := ∀ k, ¬ (v.contains k = true ∧ w.contains k = true)

theorem apart_of_stop_le {v w : Window} (h : v.stop ≤ w.start) : v.Apart w := by
  rintro k ⟨hv, hw⟩
  rw [contains_iff] at hv hw
  omega

/-- Windows of one length overlap when both begin in a third. -/
theorem not_apart_of_starts_in {u v w : Window} (hv : v.length = u.length)
    (hw : w.length = u.length) (hvu : u.contains v.start = true) (hwu : u.contains w.start = true) :
    ¬ v.Apart w := by
  intro hapart
  rw [contains_iff] at hvu hwu
  unfold stop at hvu hwu
  refine hapart (max v.start w.start) ⟨?_, ?_⟩
  · rw [contains_iff]
    unfold stop
    omega
  · rw [contains_iff]
    unfold stop
    omega

end Window

/-- The pattern fits the body at the beginning of the window, and the window is as long as the
pattern. -/
def Pattern.FitsIn (p : Pattern) (b : Body) (w : Window) : Prop :=
  ∃ o : Nat, w = ⟨o, p.length⟩ ∧ p.FitsAt b o

namespace Body

variable {b : Body} {p : Pattern} {start : Nat}

/-! ## One scan -/

theorem scanAt_of_neg {k : Int} (h : k < 0) : b.scanAt p k = .error .negativeStart := by
  unfold scanAt
  rw [if_pos h]

theorem scanAt_natCast (b : Body) (p : Pattern) (start : Nat) :
    b.scanAt p start = .ok (b.scanFrom p start) := by
  unfold scanAt
  rw [if_neg (by omega), Int.toNat_natCast]

theorem natCast_stop_of_scanFrom {w : Window} (h : b.scanFrom p start = some w) :
    (w.stop.toNat : Int) = w.stop := by
  obtain ⟨o, rfl, _⟩ := scanFrom_eq_some_iff.mp h
  rw [Window.stop_natCast, Int.toNat_natCast]

/-! ## The search for all matches -/

/-- The search from an index on ends with some windows: it scans, and from where a match stops it
scans again, until nothing is found. -/
inductive SearchEnds (b : Body) (p : Pattern) : Int → List Window → Prop
  | nothing {start : Int} (scan : b.scanAt p start = .ok none) : SearchEnds b p start []
  | found {start : Int} {w : Window} {ws : List Window} (scan : b.scanAt p start = .ok (some w))
      (rest : SearchEnds b p w.stop ws) : SearchEnds b p start (w :: ws)

theorem searchEnds_scanAllFrom (b : Body) (p : Pattern) (start : Nat) :
    b.SearchEnds p start (b.scanAllFrom p start) := by
  fun_induction b.scanAllFrom p start with
  | case1 start h => exact .nothing (by rw [scanAt_natCast, h])
  | case2 start w h ih =>
    rw [natCast_stop_of_scanFrom h] at ih
    exact .found (by rw [scanAt_natCast, h]) ih

theorem SearchEnds.unique {k : Int} {ws vs : List Window} (h : b.SearchEnds p k ws)
    (h' : b.SearchEnds p k vs) : ws = vs := by
  induction h generalizing vs with
  | nothing scan =>
    cases h' with
    | nothing => rfl
    | found scan' => simp [scan] at scan'
  | found scan rest ih =>
    cases h' with
    | nothing scan' => simp [scan] at scan'
    | found scan' rest' =>
      rw [scan] at scan'
      cases scan'
      rw [ih rest']

theorem searchEnds_iff {ws : List Window} :
    b.SearchEnds p start ws ↔ ws = b.scanAllFrom p start := by
  constructor
  · intro h
    exact h.unique (searchEnds_scanAllFrom b p start)
  · rintro rfl
    exact searchEnds_scanAllFrom b p start

/-! ## What the search finds -/

theorem mem_scanAllFrom {w : Window} (h : w ∈ b.scanAllFrom p start) :
    p.FitsIn b w ∧ start ≤ w.start := by
  fun_induction b.scanAllFrom p start with
  | case1 => cases h
  | case2 start v hv ih =>
    obtain ⟨o, rfl, ho, hfit, _⟩ := scanFrom_eq_some_iff.mp hv
    rcases List.mem_cons.mp h with rfl | h
    · exact ⟨⟨o, rfl, hfit⟩, by simpa using ho⟩
    · obtain ⟨hw, hstop⟩ := ih h
      rw [Window.stop_natCast] at hstop
      exact ⟨hw, by omega⟩

theorem scanAllFrom_in_order (b : Body) (p : Pattern) (start : Nat) :
    (b.scanAllFrom p start).Pairwise fun v w => v.stop ≤ w.start := by
  fun_induction b.scanAllFrom p start with
  | case1 => exact .nil
  | case2 start v hv ih =>
    refine List.pairwise_cons.mpr ⟨?_, ih⟩
    intro w hw
    have := (mem_scanAllFrom hw).2
    omega

/-- Wherever the pattern fits, a match of the search lies over the place. -/
theorem exists_window_of_fitsAt {o : Nat} (h : p.FitsAt b o) (ho : start ≤ o) :
    ∃ w ∈ b.scanAllFrom p start, w.contains o = true := by
  fun_induction b.scanAllFrom p start with
  | case1 start hnone => exact absurd h (scanFrom_eq_none_iff.mp hnone o ho)
  | case2 start v hv ih =>
    obtain ⟨k, rfl, _, _, hleast⟩ := scanFrom_eq_some_iff.mp hv
    have hk : k ≤ o := by
      by_contra hlt
      exact hleast o ho (by omega) h
    by_cases hin : o < k + p.length
    · refine ⟨_, List.mem_cons_self, ?_⟩
      rw [Window.contains_iff, Window.stop_natCast]
      exact ⟨by simpa using hk, by omega⟩
    · obtain ⟨w, hw, hwo⟩ := ih (by rw [Window.stop_natCast, Int.toNat_natCast]; omega)
      exact ⟨w, List.mem_cons_of_mem _ hw, hwo⟩

/-! ## No choice of matches is larger -/

/-- The match that the search finds over the beginning of a window. -/
def over? (b : Body) (p : Pattern) (w : Window) : Option Window :=
  (b.scanAll p).find? fun v => v.contains w.start

theorem over?_eq_some {w : Window} (h : p.FitsIn b w) :
    ∃ v ∈ b.scanAll p, b.over? p w = some v ∧ v.length = w.length ∧
      v.contains w.start = true := by
  obtain ⟨o, rfl, ho⟩ := h
  obtain ⟨u, hu, huo⟩ := exists_window_of_fitsAt ho (Nat.zero_le o)
  unfold over?
  cases hv : (b.scanAll p).find? fun v => v.contains o with
  | none => exact absurd huo (List.find?_eq_none.mp hv u hu)
  | some v =>
    have hmem := List.mem_of_find?_eq_some hv
    have hin := List.find?_some hv
    obtain ⟨⟨_, rfl, _⟩, _⟩ := mem_scanAllFrom hmem
    exact ⟨_, hmem, rfl, rfl, hin⟩

/-- Windows that lie apart begin in different matches of the search. -/
theorem length_le_length_scanAll {ws : List Window} (hfit : ∀ w ∈ ws, p.FitsIn b w)
    (hapart : ws.Pairwise Window.Apart) : ws.length ≤ (b.scanAll p).length := by
  have hnodup : (ws.map (b.over? p)).Nodup := by
    rw [List.nodup_iff_pairwise_ne, List.pairwise_map]
    refine hapart.imp_of_mem ?_
    intro v w hv hw hvw heq
    obtain ⟨u, _, hu, huv, hcv⟩ := over?_eq_some (hfit v hv)
    obtain ⟨u', _, hu', huw, hcw⟩ := over?_eq_some (hfit w hw)
    rw [heq, hu', Option.some.injEq] at hu
    subst hu
    exact Window.not_apart_of_starts_in huv.symm huw.symm hcv hcw hvw
  have hsubset : ws.map (b.over? p) ⊆ (b.scanAll p).map some := by
    intro x hx
    obtain ⟨w, hw, rfl⟩ := List.mem_map.mp hx
    obtain ⟨v, hv, hover, _⟩ := over?_eq_some (hfit w hw)
    rw [hover]
    exact List.mem_map.mpr ⟨v, hv, rfl⟩
  have hlength := (List.subperm_of_subset hnodup hsubset).length_le
  rwa [List.length_map, List.length_map] at hlength

/-! ## The laws -/

/-- A scan gives the first match from an index on, or tells that there is none; it is refused for a
negative index. The search for all matches ends, and gives matches in order and apart. Wherever the
pattern fits, one of them lies over it, and no other choice of matches that lie apart is larger. -/
theorem scans_find_the_first_match_and_all_that_lie_apart (b : Body) (p : Pattern) :
    (∀ start : Int, start < 0 → b.scanAt p start = .error .negativeStart) ∧
    (∀ start : Nat,
      (∀ w, b.scanAt p start = .ok (some w) ↔
        ∃ o : Nat, w = ⟨o, p.length⟩ ∧ start ≤ o ∧ p.FitsAt b o ∧
          ∀ m, start ≤ m → m < o → ¬ p.FitsAt b m) ∧
      (b.scanAt p start = .ok none ↔ ∀ o, start ≤ o → ¬ p.FitsAt b o)) ∧
    (∀ ws, b.SearchEnds p 0 ws ↔ ws = b.scanAll p) ∧
    (∀ w ∈ b.scanAll p, p.FitsIn b w) ∧
    ((b.scanAll p).Pairwise fun v w => v.start < w.start ∧ v.Apart w) ∧
    (∀ o : Nat, p.FitsAt b o → ∃ w ∈ b.scanAll p, w.start ≤ o ∧ o < w.stop) ∧
    ∀ ws : List Window, (∀ w ∈ ws, p.FitsIn b w) → ws.Pairwise Window.Apart →
      ws.length ≤ (b.scanAll p).length := by
  refine ⟨fun start => scanAt_of_neg, ?_, fun ws => searchEnds_iff, ?_, ?_, ?_, ?_⟩
  · intro start
    rw [scanAt_natCast]
    simp only [Except.ok.injEq]
    exact ⟨fun w => scanFrom_eq_some_iff, scanFrom_eq_none_iff⟩
  · intro w hw
    exact (mem_scanAllFrom hw).1
  · refine (scanAllFrom_in_order b p 0).imp_of_mem ?_
    intro v w hv _ hstop
    obtain ⟨⟨o, rfl, _⟩, _⟩ := mem_scanAllFrom hv
    have := p.length_pos
    refine ⟨?_, Window.apart_of_stop_le hstop⟩
    simp only
    rw [Window.stop_natCast] at hstop
    omega
  · intro o ho
    obtain ⟨w, hw, hin⟩ := exists_window_of_fitsAt ho (Nat.zero_le o)
    exact ⟨w, hw, Window.contains_iff.mp hin⟩
  · intro ws hfit hapart
    exact length_le_length_scanAll hfit hapart

/-- Of the four places where two instructions in a row fit five, those that overlap one before them
are left out. -/
example :
    let nop : Instruction := ⟨.nop, none, [], [], rfl⟩
    let two : Pattern := ⟨"two", [.exact .nop none, .exact .nop none], by simp⟩
    scanAll [nop, nop, nop, nop, nop] two = [⟨0, 2⟩, ⟨2, 2⟩] := by cbv

end Body

end Peephole
