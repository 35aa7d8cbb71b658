-- Spellings of opcodes. A text names an opcode when it is its mnemonic or its symbol but for the
-- case of letters, for dots and underscores that stand for each other, and for blanks around it. The
-- lookup lowers only what becomes ASCII, and tries the word as it stands before it puts dots into
-- it; neither makes a difference to what is found.
import Mathlib.Data.List.Forall2
import Peephole.Proofs.Opcode.Names
import Peephole.Proofs.Text.Lowercase

namespace Peephole

namespace Opcode

/-- The word of a text with every letter in lower case, by a rule for capital sigmas. -/
def fullWordOf (endsWord : Text.SigmaRule) (text : String) : List Char :=
  Text.lowercase endsWord (Text.trim text.toList)

/-- Characters that stand for each other in the name of an opcode: the two cases of a letter of
ASCII, and the dot and the underscore. -/
def Interchangeable (c d : Char) : Prop :=
  c.toLower = d.toLower ∨ c ∈ ['.', '_'] ∧ d ∈ ['.', '_']

/-- A text that is a name, character by character, with nothing but blanks around it. -/
def Spells (text name : String) : Prop :=
  ∃ before word after, text.toList = before ++ word ++ after ∧
    (∀ c ∈ before, Text.isBlank c = true) ∧ (∀ c ∈ after, Text.isBlank c = true) ∧
    List.Forall₂ Interchangeable word name.toList

/-- What is the same for interchangeable characters. -/
def folded (c : Char) : Char := dotted c.toLower

variable {c d : Char} {op : Opcode} {word : List Char} {text : String}

/-! ## Characters of names -/

/-- A mnemonic is in ASCII, without the letter that the Kelvin sign becomes. -/
theorem mnemonic_ascii (op : Opcode) :
    ∀ c ∈ op.mnemonic.toList, c.toNat < 0x80 ∧ c ≠ 'k' := by
  have hall : (all.all fun op => op.mnemonic.toList.all fun c =>
      decide (c.toNat < 0x80) && c != 'k') = true := by decide +kernel
  intro c hc
  simpa using of_all_mnemonics hall c hc

theorem folded_mnemonic (op : Opcode) : ∀ c ∈ op.mnemonic.toList, folded c = c := by
  have hall : (all.all fun op => op.mnemonic.toList.all fun c => folded c == c) = true := by
    decide +kernel
  intro c hc
  exact beq_iff_eq.mp (of_all_mnemonics hall c hc)

/-- A symbol differs from the mnemonic by interchangeable characters. -/
theorem folded_symbol (op : Opcode) :
    ∀ c ∈ op.mnemonic.toList, folded (if c = '.' then '_' else c.toUpper) = c := by
  have hall : (all.all fun op => op.mnemonic.toList.all fun c =>
      folded (if c = '.' then '_' else c.toUpper) == c) = true := by decide +kernel
  intro c hc
  exact beq_iff_eq.mp (of_all_mnemonics hall c hc)

theorem map_dotted_mnemonic (op : Opcode) :
    op.mnemonic.toList.map dotted = op.mnemonic.toList :=
  (List.map_congr_left fun c hc => (mnemonic_chars op c hc).2.2).trans (List.map_id _)

theorem map_folded_mnemonic (op : Opcode) :
    op.mnemonic.toList.map folded = op.mnemonic.toList :=
  (List.map_congr_left (folded_mnemonic op)).trans (List.map_id _)

theorem map_folded_symbol (op : Opcode) : op.symbol.toList.map folded = op.mnemonic.toList := by
  unfold symbol
  rw [String.toList_ofList, List.map_map]
  exact (List.map_congr_left (folded_symbol op)).trans (List.map_id _)

/-- Minus one, the short form and the comparison of unsigned values by their symbols. -/
example : [ldcI4M1, ldlocaS, bneUn].map symbol = ["LDC_I4_M1", "LDLOCA_S", "BNE_UN"] := by
  decide +kernel

/-! ## Interchangeable characters -/

theorem folded_eq_dot_iff : folded c = '.' ↔ c ∈ ['.', '_'] := by
  have hall : ∀ n < 0x80, folded (Char.ofNat n) = '.' ↔ Char.ofNat n ∈ ['.', '_'] := by decide
  by_cases hascii : c.toNat < 0x80
  · rw [← Char.ofNat_toNat c]
    exact hall _ hascii
  · unfold folded dotted
    rw [Text.toLower_of_not_capital (by omega)]
    by_cases hc : c = '_'
    · simp [hc]
    · simp [hc]

theorem folded_of_ne_dot (h : folded c ≠ '.') : folded c = c.toLower := by
  unfold folded dotted at h ⊢
  split at h
  · exact absurd rfl h
  · rename_i hc
    exact if_neg hc

theorem interchangeable_iff : Interchangeable c d ↔ folded c = folded d := by
  constructor
  · rintro (h | ⟨hc, hd⟩)
    · exact congrArg dotted h
    · rw [folded_eq_dot_iff.mpr hc, folded_eq_dot_iff.mpr hd]
  · intro h
    by_cases hc : folded c = '.'
    · exact .inr ⟨folded_eq_dot_iff.mp hc, folded_eq_dot_iff.mp (h ▸ hc)⟩
    · refine .inl ?_
      rw [← folded_of_ne_dot hc, h, folded_of_ne_dot (h ▸ hc)]

theorem forall₂_interchangeable_iff {xs ys : List Char} :
    List.Forall₂ Interchangeable xs ys ↔ xs.map folded = ys.map folded := by
  have hrelation : Interchangeable = fun c d => folded c = folded d := by
    funext c d
    exact propext interchangeable_iff
  rw [hrelation, ← List.forall₂_eq_eq_eq, List.forall₂_map_left_iff, List.forall₂_map_right_iff]

/-! ## Words -/

/-- A blank is no letter and no underscore, so it stands for itself alone. -/
theorem folded_of_blank (h : Text.isBlank c = true) : folded c = c := by
  have hranges : ∀ r ∈ Text.blankRanges, r.2 ≤ 0x20 ∨ 0x85 ≤ r.1 := by decide
  unfold Text.isBlank Text.inRanges at h
  obtain ⟨r, hr, hc⟩ := List.any_eq_true.mp h
  simp only [Bool.and_eq_true, decide_eq_true_eq] at hc
  have hapart := hranges r hr
  unfold folded
  rw [Text.toLower_of_not_capital (by omega)]
  refine if_neg ?_
  rintro rfl
  have hunderscore : '_'.toNat = 0x5f := by decide
  omega

/-- The Kelvin sign alone is lowered where it is not folded, and no mnemonic has its letter. -/
theorem dotted_lower_eq_iff (hascii : d.toNat < 0x80) (hd : d ≠ 'k') :
    dotted (Text.lower c) = d ↔ folded c = d := by
  by_cases hc : c = Char.ofNat 0x212a
  · subst hc
    refine iff_of_false ?_ ?_
    · exact fun h => hd (h.symm.trans (by decide))
    · rintro rfl
      revert hascii
      decide
  · unfold Text.lower folded
    rw [if_neg hc]

theorem map_eq_iff_map_eq {f g : Char → Char} {xs ys : List Char}
    (h : ∀ y ∈ ys, ∀ x, f x = y ↔ g x = y) : xs.map f = ys ↔ xs.map g = ys := by
  induction xs generalizing ys with
  | nil => rfl
  | cons x xs ih =>
    cases ys with
    | nil => simp
    | cons y ys =>
      rw [List.map_cons, List.map_cons, List.cons_eq_cons, List.cons_eq_cons,
        h y List.mem_cons_self, ih fun z hz => h z (List.mem_cons_of_mem _ hz)]

theorem wordOf_dotted_iff :
    (wordOf text).map dotted = op.mnemonic.toList ↔
      (Text.trim text.toList).map folded = op.mnemonic.toList := by
  unfold wordOf
  rw [List.map_map]
  exact map_eq_iff_map_eq fun d hd c =>
    dotted_lower_eq_iff (mnemonic_ascii op d hd).1 (mnemonic_ascii op d hd).2

theorem spells_iff_of_folded {name : String} (h : name.toList.map folded = op.mnemonic.toList) :
    Spells text name ↔ (Text.trim text.toList).map folded = op.mnemonic.toList := by
  constructor
  · rintro ⟨before, word, after, htext, hbefore, hafter, hword⟩
    rw [forall₂_interchangeable_iff, h] at hword
    have hblank : ∀ c ∈ word, Text.isBlank c = false := by
      intro c hc
      by_contra hne
      have hb := Bool.of_not_eq_false hne
      have hmem : c ∈ op.mnemonic.toList := by
        rw [← hword, ← folded_of_blank hb]
        exact List.mem_map_of_mem hc
      exact hne (mnemonic_chars op c hmem).1
    rw [htext, Text.trim_between_blanks hbefore hafter, Text.trim_eq_self hblank]
    exact hword
  · intro hword
    obtain ⟨before, after, htext, hbefore, hafter⟩ := Text.exists_blanks_around text.toList
    refine ⟨before, _, after, htext, hbefore, hafter, ?_⟩
    rw [forall₂_interchangeable_iff, h]
    exact hword

theorem spells_mnemonic_iff :
    Spells text op.mnemonic ↔ (wordOf text).map dotted = op.mnemonic.toList := by
  rw [spells_iff_of_folded (map_folded_mnemonic op), wordOf_dotted_iff]

theorem spells_symbol_iff : Spells text op.symbol ↔ Spells text op.mnemonic := by
  rw [spells_iff_of_folded (map_folded_symbol op), spells_iff_of_folded (map_folded_mnemonic op)]

/-! ## The lookup -/

/-- Putting dots into a mnemonic changes nothing, as it has no underscore. -/
theorem ofWord?_map_dotted (h : ofWord? word = some op) : ofWord? (word.map dotted) = some op := by
  rw [ofWord?_eq_some_iff] at h ⊢
  rw [← h, map_dotted_mnemonic]

/-- Of the word as it stands and the word with dots, the second is enough. -/
theorem or_ofWord?_map_dotted (word : List Char) :
    (ofWord? word).or (ofWord? (word.map dotted)) = ofWord? (word.map dotted) := by
  cases h : ofWord? word with
  | none => rfl
  | some op => rw [ofWord?_map_dotted h, Option.some_or]

theorem ofWord?_of_not_ascii (h : ∃ c ∈ word, 0x80 ≤ c.toNat) : ofWord? word = none := by
  obtain ⟨c, hc, hle⟩ := h
  cases hfound : ofWord? word with
  | none => rfl
  | some op =>
    rw [← ofWord?_eq_some_iff.mp hfound] at hc
    have := (mnemonic_ascii op c hc).1
    omega

theorem exists_map_dotted (h : ∃ c ∈ word, 0x80 ≤ c.toNat) :
    ∃ c ∈ word.map dotted, 0x80 ≤ c.toNat := by
  obtain ⟨c, hc, hle⟩ := h
  have hne : c ≠ '_' := by
    rintro rfl
    revert hle
    decide
  have hdotted : dotted c = c := if_neg hne
  exact ⟨c, hdotted ▸ List.mem_map_of_mem hc, hle⟩

theorem ofWord?_fullWordOf (endsWord : Text.SigmaRule) (text : String) :
    ofWord? ((fullWordOf endsWord text).map dotted) = ofWord? ((wordOf text).map dotted) := by
  unfold fullWordOf wordOf
  rcases Text.lowercase_cases endsWord (Text.trim text.toList) with h | ⟨hfull, hshort⟩
  · rw [h]
  · rw [ofWord?_of_not_ascii (exists_map_dotted hfull),
      ofWord?_of_not_ascii (exists_map_dotted hshort)]

theorem lookup_eq (text : String) : lookup text = ofWord? ((wordOf text).map dotted) :=
  or_ofWord?_map_dotted _

theorem lookup_eq_some_iff_spells : lookup text = some op ↔ Spells text op.mnemonic := by
  rw [lookup_eq, ofWord?_eq_some_iff, spells_mnemonic_iff]
  exact eq_comm

theorem ofJson_str_eq_ok_iff : ofJson (.str text) = .ok op ↔ lookup text = some op := by
  unfold ofJson Json.text
  cases lookup text <;> simp

theorem ofJson_str_eq_error_iff :
    ofJson (.str text) = .error (.unknownMnemonic text) ↔ lookup text = none := by
  unfold ofJson Json.text
  cases lookup text <;> simp

/-! ## The laws -/

/-- The lookup gives the opcode whose mnemonic a text is, without the blanks around it, in lower
case and with dots for underscores, and says of any other text that it does not know it. What the
word names as it stands it also names with dots, so no text names two opcodes. The texts that name
an opcode are the spellings of its mnemonic, which are those of its symbol. -/
theorem a_text_names_the_opcode_that_it_spells (endsWord : Text.SigmaRule) (text : String) :
    let word := fullWordOf endsWord text
    lookup text = (ofWord? word).or (ofWord? (word.map dotted)) ∧
    (∀ op, ofWord? word = some op → ofWord? (word.map dotted) = some op) ∧
    (∀ op, lookup text = some op ↔ word.map dotted = op.mnemonic.toList) ∧
    (∀ op, ofJson (.str text) = .ok op ↔ word.map dotted = op.mnemonic.toList) ∧
    (ofJson (.str text) = .error (.unknownMnemonic text) ↔
      ∀ op : Opcode, word.map dotted ≠ op.mnemonic.toList) ∧
    (∀ op, lookup text = some op ↔ Spells text op.mnemonic) ∧
    (∀ op, lookup text = some op ↔ Spells text op.symbol) ∧
    ∀ op other : Opcode, Spells text op.mnemonic → Spells text other.mnemonic → op = other := by
  intro word
  have hlookup : lookup text = ofWord? (word.map dotted) :=
    (lookup_eq text).trans (ofWord?_fullWordOf endsWord text).symm
  have hnames : ∀ op, lookup text = some op ↔ word.map dotted = op.mnemonic.toList := by
    intro op
    rw [hlookup, ofWord?_eq_some_iff]
    exact eq_comm
  refine ⟨hlookup.trans (or_ofWord?_map_dotted word).symm, fun op => ofWord?_map_dotted, hnames,
    fun op => ofJson_str_eq_ok_iff.trans (hnames op), ?_, fun op => lookup_eq_some_iff_spells,
    fun op => lookup_eq_some_iff_spells.trans spells_symbol_iff.symm, ?_⟩
  · rw [ofJson_str_eq_error_iff, Option.eq_none_iff_forall_ne_some]
    exact forall_congr' fun op => not_congr (hnames op)
  · intro op other hop hother
    rw [← lookup_eq_some_iff_spells] at hop hother
    exact Option.some.inj (hop.symm.trans hother)

/-- Letter case, dots, underscores and blanks may be mixed, but a letter that only becomes an i with
a dot above is none. -/
example :
    lookup "\n Ldc_I4.S\t" = some .ldcI4S ∧ lookup "callv\u0130rt" = none := by
  decide +kernel

end Opcode

end Peephole
