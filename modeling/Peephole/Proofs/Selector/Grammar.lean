-- The grammar of selectors. A text is read as a selector exactly when it can be divided into the
-- parts of one, and there is one division at most.
import Peephole.Proofs.Text.Trim
import Peephole.Selector.Basic

namespace Peephole.Selector

/-! ## Divisions -/

/-- The parts of a text that says a selector: what stands around the colons, the brackets and the
commas. -/
@[ext]
structure Division where
  before : List Char
  type : List Char
  name : List Char
  gap : List Char
  pieces : List (List Char)
  after : List Char

/-- A piece of what stands between the brackets. -/
def IsPiece (p : List Char) : Prop := ∀ c ∈ p, c ≠ ',' ∧ c ≠ ')'

namespace Division

/-- Each part has characters of its own, and a type, a name and a piece are there. -/
structure Proper (d : Division) : Prop where
  before_blank : ∀ c ∈ d.before, Text.isBlank c = true
  type_nonempty : d.type ≠ []
  type_chars : ∀ c ∈ d.type, isTypeChar c = true
  name_nonempty : d.name ≠ []
  name_chars : ∀ c ∈ d.name, isNameChar c = true
  gap_blank : ∀ c ∈ d.gap, Text.isBlank c = true
  pieces_nonempty : d.pieces ≠ []
  pieces_chars : ∀ p ∈ d.pieces, IsPiece p
  after_blank : ∀ c ∈ d.after, Text.isBlank c = true

/-- The pieces between brackets, and what comes after them. -/
def bracketed (pieces : List (List Char)) (after : List Char) : List Char :=
  '(' :: ([','].intercalate pieces ++ ')' :: after)

/-- The text that is divided. -/
def text (d : Division) : List Char :=
  d.before ++ (d.type ++ ':' :: ':' :: (d.name ++ (d.gap ++ bracketed d.pieces d.after)))

/-- The types in some pieces: the pieces trimmed, without those that are then empty. -/
def typesIn (pieces : List (List Char)) : List String :=
  ((pieces.map Text.trim).filter fun p => !p.isEmpty).map String.ofList

/-- The selector that the parts say. -/
def selector (d : Division) : Selector :=
  ⟨String.ofList d.type, String.ofList d.name, typesIn d.pieces⟩

end Division

/-! ## The brackets -/

open Division

variable {cs after : List Char} {pieces : List (List Char)}

theorem isParameterChar_iff {c : Char} : isParameterChar c = true ↔ c ≠ ')' := by
  simp [isParameterChar]

theorem intercalate_chars (h : ∀ p ∈ pieces, IsPiece p) :
    ∀ c ∈ [','].intercalate pieces, isParameterChar c = true := by
  induction pieces with
  | nil => simp
  | cons p ps ih =>
    have hp : ∀ c ∈ p, isParameterChar c = true := fun c hc =>
      isParameterChar_iff.mpr (h p List.mem_cons_self c hc).2
    have hps := ih fun q hq => h q (List.mem_cons_of_mem _ hq)
    cases ps with
    | nil => simpa using hp
    | cons q qs =>
      intro c hc
      rw [List.intercalate_cons_cons, List.append_assoc, List.singleton_append, List.mem_append,
        List.mem_cons] at hc
      rcases hc with hc | rfl | hc
      · exact hp c hc
      · rfl
      · exact hps c hc

theorem split_intercalate (hne : pieces ≠ []) (h : ∀ p ∈ pieces, IsPiece p) :
    Text.split ',' ([','].intercalate pieces) = pieces := by
  rw [Text.split_eq_splitOn]
  refine List.splitOn_intercalate ',' ?_ hne
  exact fun p hp hc => (h p hp _ hc).1 rfl

theorem isPiece_of_mem_split (h : ∀ c ∈ cs, isParameterChar c = true) :
    ∀ p ∈ Text.split ',' cs, IsPiece p := by
  intro p hp c hc
  obtain ⟨hmem, hcomma⟩ := Text.mem_split hp c hc
  exact ⟨hcomma, isParameterChar_iff.mp (h c hmem)⟩

theorem parseParameters_bracketed (hne : pieces ≠ []) (h : ∀ p ∈ pieces, IsPiece p)
    (hafter : ∀ c ∈ after, Text.isBlank c = true) :
    parseParameters (bracketed pieces after) = some (typesIn pieces) := by
  obtain ⟨htake, hdrop⟩ := Text.takeWhile_dropWhile_append (intercalate_chars h) (')' :: after)
    (by simp [isParameterChar])
  unfold parseParameters bracketed parametersOf
  simp only [htake, hdrop, split_intercalate hne h]
  rw [if_pos (List.all_eq_true.mpr hafter)]
  rfl

theorem parseParameters_eq_some {params : List String} (h : parseParameters cs = some params) :
    ∃ pieces after, pieces ≠ [] ∧ (∀ p ∈ pieces, IsPiece p) ∧
      (∀ c ∈ after, Text.isBlank c = true) ∧ cs = bracketed pieces after ∧
      params = typesIn pieces := by
  unfold parseParameters at h
  split at h
  · rename_i cs'
    split at h
    · rename_i after hdrop
      split at h
      · rename_i hafter
        cases h
        have hjoin := List.takeWhile_append_dropWhile (p := isParameterChar) (l := cs')
        refine ⟨Text.split ',' (cs'.takeWhile isParameterChar), after, Text.split_ne_nil _ _,
          isPiece_of_mem_split fun c hc => List.mem_takeWhile_imp hc, List.all_eq_true.mp hafter,
          ?_, rfl⟩
        unfold bracketed
        rw [Text.split_eq_splitOn, List.intercalate_splitOn, ← hdrop, hjoin]
      · cases h
    · cases h
  · cases h

/-! ## The whole text -/

theorem isTypeChar_colon : isTypeChar ':' = false := by simp [isTypeChar]

theorem not_blank_of_isTypeChar {c : Char} (h : isTypeChar c = true) :
    Text.isBlank c = false := by
  simp only [isTypeChar, Bool.and_eq_true, Bool.not_eq_true'] at h
  exact h.2

theorem isNameChar_of_gap {gap : List Char} (h : ∀ c ∈ gap, Text.isBlank c = true)
    (pieces : List (List Char)) (after : List Char) :
    ∀ c ∈ (gap ++ bracketed pieces after).head?, isNameChar c = false := by
  intro c hc
  cases gap with
  | nil =>
    cases hc
    simp [isNameChar]
  | cons b gap =>
    cases hc
    simp [isNameChar, h c List.mem_cons_self]

theorem not_blank_of_bracketed (pieces : List (List Char)) (after : List Char) :
    ∀ c ∈ (bracketed pieces after).head?, Text.isBlank c = false := by
  intro c hc
  cases hc
  decide

namespace Division

variable {d e : Division}

theorem Proper.not_blank_after_before (h : d.Proper) (rest : List Char) :
    ∀ c ∈ (d.type ++ rest).head?, Text.isBlank c = false := by
  intro c hc
  rw [List.head?_append_of_ne_nil _ h.type_nonempty] at hc
  exact not_blank_of_isTypeChar (h.type_chars c (List.mem_of_mem_head? hc))

/-- Two divisions of one text are the same. -/
theorem Proper.unique (hd : d.Proper) (he : e.Proper) (h : d.text = e.text) : d = e := by
  -- Each part ends where its test fails, so the parts are told apart one after the other.
  unfold text at h
  obtain ⟨hbefore, hrest⟩ := Text.append_inj_of_chars hd.before_blank he.before_blank
    (hd.not_blank_after_before _) (he.not_blank_after_before _) h
  obtain ⟨htype, hrest⟩ := Text.append_inj_of_chars hd.type_chars he.type_chars
    (by simp [isTypeChar_colon]) (by simp [isTypeChar_colon]) hrest
  simp only [List.cons.injEq, true_and] at hrest
  obtain ⟨hname, hrest⟩ := Text.append_inj_of_chars hd.name_chars he.name_chars
    (isNameChar_of_gap hd.gap_blank _ _) (isNameChar_of_gap he.gap_blank _ _) hrest
  obtain ⟨hgap, hrest⟩ := Text.append_inj_of_chars hd.gap_blank he.gap_blank
    (not_blank_of_bracketed _ _) (not_blank_of_bracketed _ _) hrest
  unfold bracketed at hrest
  simp only [List.cons.injEq, true_and] at hrest
  obtain ⟨hinside, hafter⟩ := Text.append_inj_of_chars (intercalate_chars hd.pieces_chars)
    (intercalate_chars he.pieces_chars) (by simp [isParameterChar]) (by simp [isParameterChar])
    hrest
  simp only [List.cons.injEq, true_and] at hafter
  have hpieces := congrArg (Text.split ',') hinside
  rw [split_intercalate hd.pieces_nonempty hd.pieces_chars,
    split_intercalate he.pieces_nonempty he.pieces_chars] at hpieces
  exact Division.ext hbefore htype hname hgap hpieces hafter

end Division

/-- A text that is divided is read as what its parts say. -/
theorem parse_of_proper {d : Division} (h : d.Proper) {t : String} (ht : t.toList = d.text) :
    parse t = some d.selector := by
  obtain ⟨-, hbefore⟩ := Text.takeWhile_dropWhile_append h.before_blank
    (d.type ++ ':' :: ':' :: (d.name ++ (d.gap ++ bracketed d.pieces d.after)))
    (h.not_blank_after_before _)
  obtain ⟨htype, hcolons⟩ := Text.takeWhile_dropWhile_append h.type_chars
    (':' :: ':' :: (d.name ++ (d.gap ++ bracketed d.pieces d.after))) (by simp [isTypeChar_colon])
  obtain ⟨hname, hgap⟩ := Text.takeWhile_dropWhile_append h.name_chars
    (d.gap ++ bracketed d.pieces d.after) (isNameChar_of_gap h.gap_blank _ _)
  obtain ⟨-, hbracket⟩ := Text.takeWhile_dropWhile_append h.gap_blank
    (bracketed d.pieces d.after) (not_blank_of_bracketed _ _)
  have hparams := parseParameters_bracketed h.pieces_nonempty h.pieces_chars h.after_blank
  have hmethod : parseMethod (d.name ++ (d.gap ++ bracketed d.pieces d.after)) =
      some (String.ofList d.name, typesIn d.pieces) := by
    unfold parseMethod
    simp [hname, hgap, hbracket, hparams, h.name_nonempty]
  unfold parse selector
  rw [ht, text, hbefore]
  simp [htype, hcolons, hmethod, h.type_nonempty]

/-- What is read is said by the parts of a division. -/
theorem proper_of_parse {t : String} {s : Selector} (h : parse t = some s) :
    ∃ d : Division, d.Proper ∧ d.text = t.toList ∧ d.selector = s := by
  unfold parse at h
  simp only at h
  split at h
  · rename_i rest hcolons
    split at h
    · cases h
    · rename_i htype
      obtain ⟨⟨name, params⟩, hmethod, he⟩ := Option.map_eq_some_iff.mp h
      cases he
      unfold parseMethod at hmethod
      simp only at hmethod
      split at hmethod
      · cases hmethod
      · rename_i hname
        obtain ⟨ps, hparams, he⟩ := Option.map_eq_some_iff.mp hmethod
        cases he
        obtain ⟨pieces, after, hne, hpieces, hafter, hbracket, rfl⟩ :=
          parseParameters_eq_some hparams
        refine ⟨⟨t.toList.takeWhile Text.isBlank,
          (t.toList.dropWhile Text.isBlank).takeWhile isTypeChar, rest.takeWhile isNameChar,
          (rest.dropWhile isNameChar).takeWhile Text.isBlank, pieces, after⟩, ?_, ?_, rfl⟩
        · exact {
            before_blank := fun c hc => List.mem_takeWhile_imp hc
            type_nonempty := by simpa using htype
            type_chars := fun c hc => List.mem_takeWhile_imp hc
            name_nonempty := by simpa using hname
            name_chars := fun c hc => List.mem_takeWhile_imp hc
            gap_blank := fun c hc => List.mem_takeWhile_imp hc
            pieces_nonempty := hne
            pieces_chars := hpieces
            after_blank := hafter }
        · unfold text
          simp only
          rw [← hbracket, List.takeWhile_append_dropWhile, List.takeWhile_append_dropWhile,
            ← hcolons, List.takeWhile_append_dropWhile, List.takeWhile_append_dropWhile]
  · cases h

end Peephole.Selector
