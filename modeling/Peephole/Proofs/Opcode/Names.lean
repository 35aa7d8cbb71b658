-- Names that are written and read again: the mnemonics of opcodes, the names of classes, and
-- the words for kinds of markers.
import Mathlib.Data.List.Nodup
import Peephole.Pattern.Document
import Peephole.Proofs.Text.Trim

namespace Peephole

/-! ## Mnemonics -/

namespace Opcode

theorem mnemonics_nodup : (all.map mnemonic).Nodup := by decide +kernel

theorem mnemonic_injective {a b : Opcode} (h : a.mnemonic.toList = b.mnemonic.toList) : a = b :=
  List.inj_on_of_nodup_map mnemonics_nodup (mem_all a) (mem_all b) (String.toList_injective h)

/-- What is checked of the characters of all mnemonics holds of those of each. -/
theorem of_all_mnemonics {p : Char → Bool} {op : Opcode}
    (h : (all.all fun op => op.mnemonic.toList.all p) = true) :
    ∀ c ∈ op.mnemonic.toList, p c = true :=
  List.all_eq_true.mp (List.all_eq_true.mp h op (mem_all op))

/-- A mnemonic is written in lower case with dots. -/
theorem mnemonic_chars (op : Opcode) : ∀ c ∈ op.mnemonic.toList,
    Text.isBlank c = false ∧ Text.lower c = c ∧ dotted c = c := by
  have hall : (all.all fun op => op.mnemonic.toList.all fun c =>
      !Text.isBlank c && Text.lower c == c && dotted c == c) = true := by decide +kernel
  intro c hc
  simpa [and_assoc] using of_all_mnemonics hall c hc

theorem wordOf_mnemonic (op : Opcode) : wordOf op.mnemonic = op.mnemonic.toList := by
  have hchars := mnemonic_chars op
  unfold wordOf
  rw [Text.trim_eq_self fun c hc => (hchars c hc).1]
  exact (List.map_congr_left fun c hc => (hchars c hc).2.1).trans (List.map_id _)

theorem ofWord?_eq_some_iff {word : List Char} {op : Opcode} :
    ofWord? word = some op ↔ op.mnemonic.toList = word := by
  constructor
  · intro h
    unfold ofWord? at h
    exact beq_iff_eq.mp (List.find?_some h :)
  · rintro rfl
    cases h : ofWord? op.mnemonic.toList with
    | none =>
      have hn := List.find?_eq_none.mp h op (mem_all op)
      simp at hn
    | some found =>
      have hf := List.find?_some h
      rw [mnemonic_injective (beq_iff_eq.mp hf)]

/-- An opcode is found by its mnemonic. -/
@[simp] theorem lookup_mnemonic (op : Opcode) : lookup op.mnemonic = some op := by
  unfold lookup
  rw [wordOf_mnemonic, ofWord?_eq_some_iff.mpr rfl, Option.some_or]

@[simp] theorem ofJson_mnemonic (op : Opcode) : ofJson (.str op.mnemonic) = .ok op := by
  unfold ofJson Json.text
  simp only [lookup_mnemonic]

end Opcode

/-! ## Classes -/

/-- What comes before the small letters is in upper case as it stands. -/
theorem Text.upper_of_lt {c : Char} (h : c.toNat < 0x61) : upper c = [c] := by
  have hexpansions : ∀ e ∈ upperExpansions, 0x61 ≤ e.1 := by decide +kernel
  have hruns : ∀ r ∈ upperRuns, 0x61 ≤ r.1 := by decide +kernel
  have hlookup : upperExpansions.lookup c.toNat = none := by
    rw [List.lookup_eq_none_iff]
    intro e he
    have := hexpansions e he
    simp only [bne_iff_ne, ne_eq]
    omega
  have hfind : (upperRuns.find? fun r => decide (r.1 ≤ c.toNat) && decide (c.toNat ≤ r.2.1) &&
      (c.toNat - r.1) % r.2.2.1 == 0) = none := by
    rw [List.find?_eq_none]
    intro r hr
    have := hruns r hr
    simp only [Bool.and_eq_true, decide_eq_true_eq]
    omega
  unfold upper
  rw [hlookup]
  simp only
  rw [hfind]

theorem Text.uppercase_eq_self {s : String} (h : ∀ c ∈ s.toList, c.toNat < 0x61) :
    uppercase s = s := by
  unfold uppercase
  have hflat : s.toList.flatMap upper = s.toList := by
    rw [List.flatMap_congr fun c hc => upper_of_lt (h c hc)]
    exact List.flatMap_singleton' _
  rw [hflat, String.ofList_toList]

namespace EncodingClass

theorem name_chars (c : EncodingClass) : ∀ x ∈ c.name.toList, x.toNat < 0x61 := by
  have hall : (byName.all fun c => c.name.toList.all fun x => decide (x.toNat < 0x61)) = true := by
    decide +kernel
  intro x hx
  have h := List.all_eq_true.mp (List.all_eq_true.mp hall c (mem_byName c)) x hx
  exact of_decide_eq_true h

@[simp] theorem ofName?_name (c : EncodingClass) : ofName? c.name = some c := by
  have hall : ∀ d ∈ byName, ofName? d.name = some d := by decide +kernel
  exact hall c (mem_byName c)

/-- A class is read from its name. -/
@[simp] theorem ofJson_name (c : EncodingClass) : ofJson (.str c.name) = .ok c := by
  unfold ofJson Json.text
  simp only [Text.uppercase_eq_self (name_chars c), ofName?_name]

end EncodingClass

/-! ## Kinds of markers -/

@[simp] theorem MarkerKind.ofJson_word (k : MarkerKind) : MarkerKind.ofJson (.str k.word) = .ok k := by
  cases k <;> rfl

end Peephole
