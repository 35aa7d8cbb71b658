-- The written form of a selector. A selector that was read is well formed, and a selector that
-- is well formed is read again from its written form.
import Peephole.Proofs.Selector.Grammar
import Peephole.Selector.Document

namespace Peephole.Selector

/-! ## Well-formed selectors -/

/-- The type of a parameter: trimmed, with neither a comma nor a closing bracket. -/
structure IsParameter (q : String) : Prop where
  nonempty : q ≠ ""
  trimmed : Text.trim q.toList = q.toList
  chars : ∀ c ∈ q.toList, c ≠ ',' ∧ c ≠ ')'

/-- A selector whose parts can be told apart in its written form. -/
structure WellFormed (s : Selector) : Prop where
  type_nonempty : s.declaringType ≠ ""
  type_chars : ∀ c ∈ s.declaringType.toList, isTypeChar c = true
  name_nonempty : s.name ≠ ""
  name_chars : ∀ c ∈ s.name.toList, isNameChar c = true
  parameters : ∀ q ∈ s.parameterTypes, IsParameter q

/-! ## What is read is well formed -/

theorem isParameter_of_mem {pieces : List (List Char)} (h : ∀ p ∈ pieces, IsPiece p) {q : String}
    (hq : q ∈ Division.typesIn pieces) : IsParameter q := by
  unfold Division.typesIn at hq
  obtain ⟨p, hp, rfl⟩ := List.mem_map.mp hq
  obtain ⟨hp, hne⟩ := List.mem_filter.mp hp
  obtain ⟨piece, hpiece, rfl⟩ := List.mem_map.mp hp
  refine ⟨?_, ?_, ?_⟩
  · rw [Ne, String.ofList_eq_empty_iff]
    simpa using hne
  · rw [String.toList_ofList]
    exact Text.trimBy_trimBy _ _
  · intro c hc
    rw [String.toList_ofList] at hc
    exact h piece hpiece c ((Text.trimBy_sublist _ _).subset hc)

theorem Division.Proper.wellFormed {d : Division} (h : d.Proper) : d.selector.WellFormed := by
  refine ⟨?_, ?_, ?_, ?_, ?_⟩
  · rw [Division.selector, Ne, String.ofList_eq_empty_iff]
    exact h.type_nonempty
  · rw [Division.selector, String.toList_ofList]
    exact h.type_chars
  · rw [Division.selector, Ne, String.ofList_eq_empty_iff]
    exact h.name_nonempty
  · rw [Division.selector, String.toList_ofList]
    exact h.name_chars
  · exact fun q hq => isParameter_of_mem h.pieces_chars hq

/-- A selector that was read is well formed. -/
theorem wellFormed_of_parse {text : String} {s : Selector} (h : parse text = some s) :
    s.WellFormed := by
  obtain ⟨d, hd, _, rfl⟩ := proper_of_parse h
  exact hd.wellFormed

/-! ## What is well formed is read again -/

/-- The pieces between the brackets of a written form. A blank comes after each comma. -/
def piecesOf : List String → List (List Char)
  | [] => [[]]
  | q :: qs => q.toList :: qs.map fun r => ' ' :: r.toList

/-- The parts of a written form. -/
def division (s : Selector) : Division where
  before := []
  type := s.declaringType.toList
  name := s.name.toList
  gap := []
  pieces := piecesOf s.parameterTypes
  after := []

theorem intercalate_blanks (p : List Char) (ps : List (List Char)) :
    [','].intercalate (p :: ps.map (' ' :: ·)) = [',', ' '].intercalate (p :: ps) := by
  induction ps generalizing p with
  | nil => rfl
  | cons q qs ih =>
    rw [List.map_cons, List.intercalate_cons_cons, List.intercalate_cons_cons_left, ih q,
      List.intercalate_cons_cons]
    simp

theorem intercalate_piecesOf (qs : List String) :
    [','].intercalate (piecesOf qs) = [',', ' '].intercalate (qs.map String.toList) := by
  cases qs with
  | nil => rfl
  | cons q qs =>
    have h := intercalate_blanks q.toList (qs.map String.toList)
    rw [List.map_map] at h
    exact h

theorem division_text (s : Selector) : s.division.text = s.key.toList := by
  unfold key Division.text Division.bracketed division
  simp [String.toList_append, String.toList_intercalate, intercalate_piecesOf]

theorem typesIn_piecesOf {qs : List String} (h : ∀ q ∈ qs, IsParameter q) :
    Division.typesIn (piecesOf qs) = qs := by
  cases qs with
  | nil => rfl
  | cons q qs =>
    have htrim : (piecesOf (q :: qs)).map Text.trim = (q :: qs).map String.toList := by
      unfold piecesOf
      rw [List.map_cons, List.map_cons, List.map_map, (h q List.mem_cons_self).trimmed]
      refine congrArg _ (List.map_congr_left fun r hr => ?_)
      rw [Function.comp_apply, Text.trim_cons_blank (by decide),
        (h r (List.mem_cons_of_mem _ hr)).trimmed]
    unfold Division.typesIn
    rw [htrim, List.filter_eq_self.mpr, List.map_map]
    · simp [Function.comp_def]
    · intro p hp
      obtain ⟨r, hr, rfl⟩ := List.mem_map.mp hp
      have hne := (h r hr).nonempty
      simpa [String.toList_eq_nil_iff] using hne

theorem WellFormed.division_selector {s : Selector} (h : s.WellFormed) :
    s.division.selector = s := by
  unfold Division.selector division
  simp only [String.ofList_toList, typesIn_piecesOf h.parameters]

theorem isPiece_of_mem_piecesOf {qs : List String} (h : ∀ q ∈ qs, IsParameter q) :
    ∀ p ∈ piecesOf qs, IsPiece p := by
  cases qs with
  | nil => simp [piecesOf, IsPiece]
  | cons q qs =>
    unfold piecesOf
    rw [List.forall_mem_cons, List.forall_mem_map]
    refine ⟨(h q List.mem_cons_self).chars, ?_⟩
    intro r hr c hc
    rcases List.mem_cons.mp hc with rfl | hc
    · decide
    · exact (h r (List.mem_cons_of_mem _ hr)).chars c hc

theorem WellFormed.division_proper {s : Selector} (h : s.WellFormed) : s.division.Proper where
  before_blank := by simp [division]
  type_nonempty := by simpa [division, String.toList_eq_nil_iff] using h.type_nonempty
  type_chars := h.type_chars
  name_nonempty := by simpa [division, String.toList_eq_nil_iff] using h.name_nonempty
  name_chars := h.name_chars
  gap_blank := by simp [division]
  pieces_nonempty := by
    unfold division
    cases s.parameterTypes <;> simp [piecesOf]
  pieces_chars := isPiece_of_mem_piecesOf h.parameters
  after_blank := by simp [division]

/-- A selector that is well formed is read from its written form. -/
theorem parse_key {s : Selector} (h : s.WellFormed) : parse s.key = some s := by
  rw [parse_of_proper h.division_proper (division_text s).symm, h.division_selector]

/-- A selector is read from its written form exactly when it is well formed. -/
theorem parse_key_iff {s : Selector} : parse s.key = some s ↔ s.WellFormed :=
  ⟨wellFormed_of_parse, parse_key⟩

theorem key_injective {s t : Selector} (hs : s.WellFormed) (ht : t.WellFormed)
    (h : s.key = t.key) : s = t := by
  have hread := parse_key hs
  rw [h, parse_key ht] at hread
  exact (Option.some.inj hread).symm

/-! ## Reading -/

theorem parse_eq_some_iff {t : String} {s : Selector} :
    parse t = some s ↔ ∃ d : Division, d.Proper ∧ d.text = t.toList ∧ d.selector = s := by
  constructor
  · exact proper_of_parse
  · rintro ⟨d, hd, htext, rfl⟩
    exact parse_of_proper hd htext.symm

theorem ofJson_str_eq_ok_iff {t : String} {s : Selector} :
    ofJson (.str t) = .ok s ↔ parse t = some s := by
  unfold ofJson
  simp only
  cases parse t with
  | none => simp
  | some u => simp

theorem ofJson_of_no_division {t : String} (h : ∀ d : Division, d.Proper → d.text ≠ t.toList) :
    ofJson (.str t) = .error (.value (.malformedSelector (.str t))) := by
  unfold ofJson
  simp only
  cases hparse : parse t with
  | none => rfl
  | some s =>
    obtain ⟨d, hd, htext, _⟩ := proper_of_parse hparse
    exact absurd htext (h d hd)

/-! ## The laws -/

/-- A text is read as a selector exactly when it can be divided into the parts of one, which can be
done in one way at most; otherwise the text is malformed. What was read is well formed. The well
formed selectors are those that are read again from their written forms, and no two of them have
the same written form. -/
theorem a_selector_is_read_as_its_text_is_divided :
    (∀ (t : String) (s : Selector),
      parse t = some s ↔ ∃ d : Division, d.Proper ∧ d.text = t.toList ∧ d.selector = s) ∧
    (∀ d e : Division, d.Proper → e.Proper → d.text = e.text → d = e) ∧
    (∀ (t : String) (s : Selector), ofJson (.str t) = .ok s ↔ parse t = some s) ∧
    (∀ t : String, (∀ d : Division, d.Proper → d.text ≠ t.toList) →
      ofJson (.str t) = .error (.value (.malformedSelector (.str t)))) ∧
    (∀ (t : String) (s : Selector), parse t = some s → s.WellFormed) ∧
    (∀ s : Selector, parse s.key = some s ↔ s.WellFormed) ∧
    (∀ (t : String) (s : Selector), parse t = some s → parse s.key = some s) ∧
    ∀ s t : Selector, s.WellFormed → t.WellFormed → s.key = t.key → s = t := by
  refine ⟨fun t s => parse_eq_some_iff, fun d e hd he => hd.unique he,
    fun t s => ofJson_str_eq_ok_iff, fun t => ofJson_of_no_division,
    fun t s => wellFormed_of_parse, fun s => parse_key_iff, ?_, fun s t => key_injective⟩
  intro t s h
  exact parse_key (wellFormed_of_parse h)

/-- A name may hold colons and closing brackets, and a type of a parameter opening ones. -/
example :
    parse " A::b::c) (List(int ,,\tref int)\n" = some ⟨"A", "b::c)", ["List(int", "ref int"]⟩ := by
  decide +kernel

end Peephole.Selector
