-- Lines of texts. A text is cut at its line feeds, and has a line more than it has line feeds. So
-- texts that are each ended by a line feed give their lines one after the other.
import Mathlib.Algebra.Ring.Nat
import Mathlib.Data.List.Basic
import Peephole.Text.Number

namespace Peephole.Text

/-- The lines of a text, the last one being what comes after its last line feed. -/
def lines (s : String) : List (List Char) := s.toList.splitOn '\n'

/-- How many line feeds there are in a text. -/
def feeds (s : String) : Nat := s.toList.count '\n'

/-! ## Counting line feeds -/

@[simp] theorem feeds_append (s t : String) : feeds (s ++ t) = feeds s + feeds t := by
  unfold feeds
  rw [String.toList_append, List.count_append]

theorem feeds_eq_zero_iff {s : String} : feeds s = 0 ↔ '\n' ∉ s.toList := List.count_eq_zero

theorem feeds_intercalate {sep : String} (hsep : feeds sep = 0) (ss : List String) :
    feeds (sep.intercalate ss) = (ss.map feeds).sum := by
  induction ss with
  | nil => simp [feeds]
  | cons s ss ih =>
    by_cases hss : ss = []
    · simp [hss]
    · rw [String.intercalate_cons_of_ne_nil hss]
      simp [ih, hsep]

theorem not_mem_toDigits {c : Char} (hc : c.isDigit = false) (n : Nat) :
    c ∉ Nat.toDigits 10 n := by
  intro h
  rw [Nat.isDigit_of_mem_toDigits (by decide) (by decide) h] at hc
  cases hc

@[simp] theorem feeds_natRepr (n : Nat) : feeds n.repr = 0 := by
  rw [feeds_eq_zero_iff, Nat.toList_repr]
  exact not_mem_toDigits (by decide) n

@[simp] theorem feeds_intRepr (n : Int) : feeds n.repr = 0 := by
  cases n with
  | ofNat m => exact feeds_natRepr m
  | negSucc m =>
    change feeds ("-" ++ (m + 1).repr) = 0
    rw [feeds_append, feeds_natRepr]
    decide

theorem toList_padded (width n : Nat) :
    (padded width n).toList =
      List.replicate (width - (Nat.toDigits 10 n).length) '0' ++ Nat.toDigits 10 n := by
  unfold padded
  rw [String.toList_ofList]
  rfl

@[simp] theorem feeds_padded (width n : Nat) : feeds (padded width n) = 0 := by
  rw [feeds_eq_zero_iff, toList_padded, List.mem_append]
  rintro (h | h)
  · cases List.eq_of_mem_replicate h
  · exact not_mem_toDigits (by decide) n h

/-! ## Cutting at line feeds -/

theorem length_splitOn (c : Char) (cs : List Char) : (cs.splitOn c).length = cs.count c + 1 := by
  induction cs with
  | nil => rfl
  | cons x xs ih =>
    rw [List.splitOn_cons_eq_if_modifyHead, List.count_cons]
    by_cases h : (x == c) = true
    · simp [h, ih]
    · simp [h, ih]

theorem length_lines (s : String) : (lines s).length = feeds s + 1 := length_splitOn '\n' s.toList

/-- A text is its only line when it has no line feed. -/
theorem lines_eq_singleton_iff {s : String} : lines s = [s.toList] ↔ feeds s = 0 := by
  constructor
  · intro h
    have hlength := length_lines s
    rw [h] at hlength
    simpa using hlength
  · exact fun h => List.splitOn_eq_singleton (feeds_eq_zero_iff.mp h)

/-- What comes before the first separator goes to the first piece. -/
theorem splitOn_append_of_not_mem {c : Char} {xs : List Char} (h : c ∉ xs) (ys : List Char) :
    (xs ++ ys).splitOn c = (ys.splitOn c).modifyHead (xs ++ ·) := by
  induction xs with
  | nil => exact (congrFun List.modifyHead_id _).symm
  | cons x xs ih =>
    have hx : (x == c) = false := beq_eq_false_iff_ne.mpr fun hc => h (hc ▸ List.mem_cons_self)
    rw [List.cons_append, List.splitOn_cons_eq_if_modifyHead, if_neg (by simp [hx]),
      ih fun hc => h (List.mem_cons_of_mem _ hc), List.modifyHead_modifyHead]
    rfl

/-- Texts with line feeds between them and after the last one give their lines one after the
other, and at the end an empty one. -/
theorem lines_intercalate {ss : List String} (h : ss ≠ []) :
    lines ("\n".intercalate ss ++ "\n") = ss.flatMap lines ++ [[]] := by
  unfold lines
  rw [String.toList_append]
  induction ss with
  | nil => exact absurd rfl h
  | cons s ss ih =>
    by_cases hss : ss = []
    · subst hss
      rw [String.intercalate_singleton]
      simpa using List.splitOn_append_cons_self (a := '\n') s.toList []
    · rw [String.intercalate_cons_of_ne_nil hss, String.toList_append, String.toList_append,
        List.append_assoc, List.append_assoc]
      change (s.toList ++ '\n' :: (_ ++ _)).splitOn '\n' = _
      rw [List.splitOn_append_cons_self, List.flatMap_cons, List.append_assoc, ← ih hss]
      rfl

theorem length_flatMap_lines (ss : List String) :
    (ss.flatMap lines).length = ss.length + (ss.map feeds).sum := by
  induction ss with
  | nil => rfl
  | cons s ss ih =>
    rw [List.flatMap_cons, List.length_append, length_lines, ih, List.length_cons, List.map_cons,
      List.sum_cons]
    omega

/-- Texts are each one line when there are as many lines as texts. -/
theorem flatMap_lines_eq_iff {ss : List String} :
    ss.flatMap lines = ss.map String.toList ↔ (ss.map feeds).sum = 0 := by
  constructor
  · intro h
    have hlength := length_flatMap_lines ss
    rw [h, List.length_map] at hlength
    omega
  · intro h
    have hzero : ∀ s ∈ ss, lines s = [s.toList] := by
      intro s hs
      rw [lines_eq_singleton_iff]
      exact List.sum_eq_zero_iff_forall_eq_nat.mp h _ (List.mem_map_of_mem hs)
    rw [List.flatMap_congr hzero, List.map_eq_flatMap]

end Peephole.Text
