-- Trimming and cutting. A trimmed text has nothing left to trim. A text is cut where a test fails,
-- or at a separator that stands in none of the pieces.
import Mathlib.Data.List.DropRight
import Mathlib.Data.List.TakeWhile
import Peephole.Text.Blank
import Peephole.Text.Split

namespace Peephole.Text

/-! ## Trimming -/

variable {p : Char → Bool} {cs : List Char}

theorem dropWhile_eq_self (h : ∀ c ∈ cs.head?, p c = false) : cs.dropWhile p = cs := by
  cases cs with
  | nil => rfl
  | cons c cs => rw [List.dropWhile_cons_of_neg (by simp [h c rfl])]

theorem head?_dropWhile (p : Char → Bool) (cs : List Char) :
    ∀ c ∈ (cs.dropWhile p).head?, p c = false := by
  intro c hc
  have h := List.head?_dropWhile_not p cs
  rw [Option.mem_def.mp hc] at h
  simpa using h

theorem trimBy_eq_rdropWhile (p : Char → Bool) (cs : List Char) :
    trimBy p cs = (cs.dropWhile p).rdropWhile p := rfl

theorem trimBy_sublist (p : Char → Bool) (cs : List Char) : (trimBy p cs).Sublist cs :=
  (List.rdropWhile_prefix p _).sublist.trans (List.dropWhile_sublist p)

theorem trimBy_trimBy (p : Char → Bool) (cs : List Char) :
    trimBy p (trimBy p cs) = trimBy p cs := by
  -- Trimming the end leaves the first character, so the start needs no trimming again.
  have hstart : (trimBy p cs).dropWhile p = trimBy p cs := by
    refine dropWhile_eq_self ?_
    intro c hc
    obtain ⟨rest, hrest⟩ := List.rdropWhile_prefix p (cs.dropWhile p)
    refine head?_dropWhile p cs c ?_
    rw [← hrest, List.head?_append]
    exact Option.or_eq_some_iff.mpr (Or.inl hc)
  rw [trimBy_eq_rdropWhile p (trimBy p cs), hstart, trimBy_eq_rdropWhile]
  exact List.rdropWhile_idempotent p _

theorem trim_eq_self (h : ∀ c ∈ cs, isBlank c = false) : trim cs = cs := by
  have hstart : cs.dropWhile isBlank = cs :=
    dropWhile_eq_self fun c hc => h c (List.mem_of_mem_head? hc)
  have hend : cs.reverse.dropWhile isBlank = cs.reverse :=
    dropWhile_eq_self fun c hc => h c (List.mem_reverse.mp (List.mem_of_mem_head? hc))
  unfold trim trimBy
  rw [hstart, hend, List.reverse_reverse]

theorem trim_cons_blank {c : Char} (h : isBlank c = true) (cs : List Char) :
    trim (c :: cs) = trim cs := by
  unfold trim trimBy
  rw [List.dropWhile_cons_of_pos h]

theorem trim_between_blanks {before after : List Char} (hb : ∀ c ∈ before, isBlank c = true)
    (ha : ∀ c ∈ after, isBlank c = true) (cs : List Char) :
    trim (before ++ cs ++ after) = trim cs := by
  have hstart : (before ++ cs ++ after).dropWhile isBlank = (cs ++ after).dropWhile isBlank := by
    rw [List.append_assoc, List.dropWhile_append_of_pos hb]
  have hnothing : after.dropWhile isBlank = [] := List.dropWhile_eq_nil_iff.mpr ha
  have hend : ∀ c ∈ after.reverse, isBlank c = true := fun c hc => ha c (List.mem_reverse.mp hc)
  unfold trim trimBy
  rw [hstart, List.dropWhile_append]
  split
  · rename_i hempty
    rw [hnothing, List.isEmpty_iff.mp hempty]
  · rw [List.reverse_append, List.dropWhile_append_of_pos hend]

/-- A text is its trimmed text with blanks around it. -/
theorem exists_blanks_around (cs : List Char) :
    ∃ before after, cs = before ++ trim cs ++ after ∧ (∀ c ∈ before, isBlank c = true) ∧
      ∀ c ∈ after, isBlank c = true := by
  refine ⟨cs.takeWhile isBlank, (cs.dropWhile isBlank).rtakeWhile isBlank, ?_,
    fun c hc => List.mem_takeWhile_imp hc, fun c hc => List.mem_rtakeWhile_imp hc⟩
  unfold trim
  rw [trimBy_eq_rdropWhile, List.append_assoc, List.rdropWhile_append_rtakeWhile,
    List.takeWhile_append_dropWhile]

/-! ## Cutting -/

/-- The characters up to the first one that fails a test, and the rest. -/
theorem takeWhile_dropWhile_append {p : Char → Bool} {xs : List Char}
    (hx : ∀ c ∈ xs, p c = true) (ys : List Char) (hy : ∀ c ∈ ys.head?, p c = false) :
    (xs ++ ys).takeWhile p = xs ∧ (xs ++ ys).dropWhile p = ys := by
  rw [List.takeWhile_append_of_pos hx, List.dropWhile_append_of_pos hx]
  cases ys with
  | nil => simp
  | cons c ys => simp [hy c rfl]

/-- A list is divided in one way only where the one part passes a test and the next does not begin
with what passes it. -/
theorem append_inj_of_chars {p : Char → Bool} {xs xs' ys ys' : List Char}
    (hx : ∀ c ∈ xs, p c = true) (hx' : ∀ c ∈ xs', p c = true)
    (hy : ∀ c ∈ ys.head?, p c = false) (hy' : ∀ c ∈ ys'.head?, p c = false)
    (h : xs ++ ys = xs' ++ ys') : xs = xs' ∧ ys = ys' := by
  obtain ⟨htake, hdrop⟩ := takeWhile_dropWhile_append hx ys hy
  obtain ⟨htake', hdrop'⟩ := takeWhile_dropWhile_append hx' ys' hy'
  constructor
  · rw [← htake, h, htake']
  · rw [← hdrop, h, hdrop']

variable {sep : Char}

theorem split_ne_nil (sep : Char) (cs : List Char) : split sep cs ≠ [] := by
  cases cs with
  | nil => simp [split]
  | cons c cs =>
    unfold split
    split
    · simp
    · split <;> simp

theorem split_cons_of_ne {c : Char} (h : c ≠ sep) (cs : List Char) :
    ∃ piece pieces, split sep cs = piece :: pieces ∧
      split sep (c :: cs) = (c :: piece) :: pieces := by
  cases hs : split sep cs with
  | nil => exact absurd hs (split_ne_nil sep cs)
  | cons piece pieces => exact ⟨piece, pieces, rfl, by rw [split, if_neg h, hs]⟩

/-- A piece holds no separator, and nothing that the text does not hold. -/
theorem mem_split {piece : List Char} (h : piece ∈ split sep cs) :
    ∀ c ∈ piece, c ∈ cs ∧ c ≠ sep := by
  induction cs generalizing piece with
  | nil =>
    rw [split, List.mem_singleton] at h
    subst h
    simp
  | cons d ds ih =>
    by_cases hd : d = sep
    · rw [split, if_pos hd] at h
      rcases List.mem_cons.mp h with rfl | h
      · simp
      · exact fun c hc => ⟨List.mem_cons_of_mem _ (ih h c hc).1, (ih h c hc).2⟩
    · obtain ⟨first, rest, hs, hc⟩ := split_cons_of_ne hd ds
      rw [hc] at h
      have hrest : ∀ q ∈ first :: rest, ∀ c ∈ q, c ∈ d :: ds ∧ c ≠ sep := fun q hq c hcq =>
        ⟨List.mem_cons_of_mem _ (ih (hs ▸ hq) c hcq).1, (ih (hs ▸ hq) c hcq).2⟩
      rcases List.mem_cons.mp h with rfl | h
      · intro c hcq
        rcases List.mem_cons.mp hcq with rfl | hcq
        · exact ⟨List.mem_cons_self, hd⟩
        · exact hrest first List.mem_cons_self c hcq
      · exact hrest piece (List.mem_cons_of_mem _ h)

theorem split_eq_splitOn (sep : Char) (cs : List Char) : split sep cs = cs.splitOn sep := by
  induction cs with
  | nil => simp [split]
  | cons c cs ih =>
    rw [List.splitOn_cons_eq_if_modifyHead, ← ih]
    by_cases hc : c = sep
    · rw [split, if_pos hc, if_pos (beq_iff_eq.mpr hc)]
    · obtain ⟨piece, pieces, hs, hcons⟩ := split_cons_of_ne hc cs
      rw [hcons, hs, if_neg (by simpa using hc), List.modifyHead_cons]

end Peephole.Text
