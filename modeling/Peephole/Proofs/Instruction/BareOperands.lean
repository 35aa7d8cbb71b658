-- Bare operands. A number is read as the operand of an opcode that takes numbers, if it takes this
-- one, and a text as that of the opcode that loads texts. Nothing else is an operand without saying
-- its kind, and a value that is read is read as if it said the kind that the opcode asks for.
import Peephole.Proofs.Instruction.Written
import Peephole.Proofs.Opcode.Forms

namespace Peephole

/-! ## The numbers that opcodes take -/

/-- The operand that a number is where a shape is asked for. -/
def Operand.ofNumber? : OperandShape → Int → Option Operand
  | .integer, n => (Constant.ofInt? n).map .constant
  | .slot, n => (Slot.ofInt? n).map .slot
  | .argument, n => (Slot.ofInt? n).map .slot
  | .label, n => (Label.ofInt? n).map .label
  | _, _ => none

theorem Constant.exists_ofInt?_iff {n : Int} :
    (∃ c, ofInt? n = some c) ↔ -9223372036854775808 ≤ n ∧ n ≤ 9223372036854775807 := by
  unfold ofInt?
  split
  · rename_i h
    exact iff_of_true ⟨_, rfl⟩ h
  · rename_i h
    exact iff_of_false (by simp) h

theorem Slot.exists_ofInt?_iff {n : Int} : (∃ s, ofInt? n = some s) ↔ 0 ≤ n ∧ n ≤ 65535 := by
  unfold ofInt?
  split
  · rename_i h
    exact iff_of_true ⟨_, rfl⟩ h
  · rename_i h
    exact iff_of_false (by simp) h

theorem Label.exists_ofInt?_iff {n : Int} : (∃ l, ofInt? n = some l) ↔ 0 ≤ n := by
  unfold ofInt?
  split
  · rename_i h
    exact iff_of_true ⟨_, rfl⟩ h
  · rename_i h
    exact iff_of_false (by simp) h

theorem Label.id_of_ofInt? {n : Int} {l : Label} (h : ofInt? n = some l) : (l.id : Int) = n := by
  unfold ofInt? at h
  split at h <;> cases h
  simp only
  omega

namespace Opcode

variable {op : Opcode} {n : Int} {o : Operand}

/-- A short form holds the number that it implies, any other opcode those between its bounds. -/
def Holds (op : Opcode) (n : Int) : Prop :=
  match op.info.implied with
  | some implied => n = implied
  | none =>
    (∀ least ∈ op.info.least, least ≤ n) ∧ ∀ greatest ∈ op.info.greatest, n ≤ greatest

/-- The numbers that may be the operand of an opcode. Slots and labels are never negative. -/
def Takes (op : Opcode) (n : Int) : Prop :=
  match op.shape with
  | .integer => op.Holds n
  | .slot => 0 ≤ n ∧ op.Holds n
  | .argument => 0 ≤ n ∧ op.Holds n
  | .label => 0 ≤ n
  | _ => False

theorem checkNumber_eq_ok_iff : op.checkNumber n = .ok () ↔ op.Holds n := by
  unfold Holds
  split
  · rename_i implied himplied
    exact checkNumber_of_implied himplied
  · rename_i himplied
    exact checkNumber_of_bounds himplied

/-- The constants that an opcode holds have sixty-four bits at most. -/
theorem fits_of_holds (hshape : op.shape = .integer) (h : op.Holds n) :
    -9223372036854775808 ≤ n ∧ n ≤ 9223372036854775807 := by
  have htable : ∀ op : Opcode, op.shape = .integer →
      (∀ k ∈ op.info.implied, -9223372036854775808 ≤ k ∧ k ≤ 9223372036854775807) ∧
      (op.info.implied = none →
        op.info.least.any (fun l => decide (-9223372036854775808 ≤ l)) = true ∧
        op.info.greatest.any (fun g => decide (g ≤ 9223372036854775807)) = true) := by decide
  obtain ⟨himplied, hbounds⟩ := htable op hshape
  unfold Holds at h
  split at h
  · rename_i k hk
    rw [h]
    exact himplied k hk
  · rename_i hnone
    obtain ⟨hleast, hgreatest⟩ := hbounds hnone
    obtain ⟨l, hl, hle⟩ := (Option.any_eq_true _ _).mp hleast
    obtain ⟨g, hg, hge⟩ := (Option.any_eq_true _ _).mp hgreatest
    have hleast := h.1 l hl
    have hgreatest := h.2 g hg
    simp only [decide_eq_true_eq] at hle hge
    omega

/-- The slots that an opcode holds are below the number of slots. -/
theorem le_of_holds (hshape : op.shape = .slot ∨ op.shape = .argument) (h : op.Holds n) :
    n ≤ 65535 := by
  have htable : ∀ op : Opcode, op.shape = .slot ∨ op.shape = .argument →
      (∀ k ∈ op.info.implied, k ≤ 65535) ∧
      (op.info.implied = none →
        op.info.greatest.any (fun g => decide (g ≤ 65535)) = true) := by decide
  obtain ⟨himplied, hbounds⟩ := htable op hshape
  unfold Holds at h
  split at h
  · rename_i k hk
    rw [h]
    exact himplied k hk
  · rename_i hnone
    obtain ⟨g, hg, hge⟩ := (Option.any_eq_true _ _).mp (hbounds hnone)
    have hgreatest := h.2 g hg
    simp only [decide_eq_true_eq] at hge
    omega

/-! ## Numbers as operands -/

theorem check_constant_iff (hshape : op.shape = .integer) :
    (∃ o, Operand.ofNumber? op.shape n = some o ∧ op.check (some o) = .ok ()) ↔ op.Holds n := by
  simp only [hshape, Operand.ofNumber?, Option.map_eq_some_iff, check_some_eq_ok_iff]
  constructor
  · rintro ⟨_, ⟨c, hc, rfl⟩, -, hpart⟩
    rw [← Constant.value_of_ofInt? hc]
    exact checkNumber_eq_ok_iff.mp hpart
  · intro h
    obtain ⟨c, hc⟩ := Constant.exists_ofInt?_iff.mpr (fits_of_holds hshape h)
    refine ⟨_, ⟨c, hc, rfl⟩, rfl, checkNumber_eq_ok_iff.mpr ?_⟩
    rw [Constant.value_of_ofInt? hc]
    exact h

theorem check_slot_iff (hshape : op.shape = .slot ∨ op.shape = .argument) :
    (∃ o, Operand.ofNumber? op.shape n = some o ∧ op.check (some o) = .ok ()) ↔
      0 ≤ n ∧ op.Holds n := by
  have hnumber : Operand.ofNumber? op.shape n = (Slot.ofInt? n).map .slot := by
    rcases hshape with h | h <;> rw [h] <;> rfl
  simp only [hnumber, Option.map_eq_some_iff, check_some_eq_ok_iff, fitsShape_slot hshape]
  constructor
  · rintro ⟨_, ⟨s, hs, rfl⟩, -, hpart⟩
    rw [← Slot.index_of_ofInt? hs]
    exact ⟨Int.natCast_nonneg _, checkNumber_eq_ok_iff.mp hpart⟩
  · rintro ⟨hnonneg, h⟩
    obtain ⟨s, hs⟩ := Slot.exists_ofInt?_iff.mpr ⟨hnonneg, le_of_holds hshape h⟩
    refine ⟨_, ⟨s, hs, rfl⟩, ⟨s, rfl⟩, checkNumber_eq_ok_iff.mpr ?_⟩
    rw [Slot.index_of_ofInt? hs]
    exact h

theorem check_label_iff (hshape : op.shape = .label) :
    (∃ o, Operand.ofNumber? op.shape n = some o ∧ op.check (some o) = .ok ()) ↔ 0 ≤ n := by
  simp only [hshape, Operand.ofNumber?, Option.map_eq_some_iff, check_some_eq_ok_iff]
  rw [← Label.exists_ofInt?_iff]
  constructor
  · rintro ⟨_, ⟨l, hl, rfl⟩, -⟩
    exact ⟨l, hl⟩
  · rintro ⟨l, hl⟩
    exact ⟨_, ⟨l, hl, rfl⟩, rfl, rfl⟩

/-- An opcode takes a number when the number is an operand that it accepts. -/
theorem takes_iff :
    op.Takes n ↔ ∃ o, Operand.ofNumber? op.shape n = some o ∧ op.check (some o) = .ok () := by
  unfold Takes
  split
  · rename_i hshape
    exact (check_constant_iff hshape).symm
  · rename_i hshape
    exact (check_slot_iff (.inl hshape)).symm
  · rename_i hshape
    exact (check_slot_iff (.inr hshape)).symm
  · rename_i hshape
    exact (check_label_iff hshape).symm
  · rename_i hinteger hslot hargument hlabel
    refine iff_of_false not_false ?_
    rintro ⟨o, ho, -⟩
    cases hshape : op.shape with
    | integer => exact hinteger hshape
    | slot => exact hslot hshape
    | argument => exact hargument hshape
    | label => exact hlabel hshape
    | _ =>
      rw [hshape] at ho
      cases ho

theorem shape_eq_string_iff : op.shape = .string ↔ op = .ldstr := by
  revert op
  decide

end Opcode

/-! ## Reading bare values -/

namespace Operand

variable {shape : OperandShape} {x : Json} {o : Operand} {n : Int}

/-- A bare value as an object that says the kind which a shape asks for. -/
def tagged (shape : OperandShape) (x : Json) : Json :=
  match shape with
  | .integer => .obj [("kind", .str "int"), ("value", x)]
  | .string => .obj [("kind", .str "string"), ("value", x)]
  | .slot => .obj [("kind", .str "local"), ("index", x)]
  | .argument => .obj [("kind", .str "local"), ("index", x)]
  | .label => .obj [("kind", .str "label"), ("id", x)]
  | _ => x

theorem ofBare_int : ofBare (some shape) (.int n) = .ok o ↔ ofNumber? shape n = some o := by
  cases shape with
  | integer =>
    change (Constant.ofInt n).map constant = .ok o ↔ (Constant.ofInt? n).map constant = some o
    unfold Constant.ofInt
    cases Constant.ofInt? n <;> simp [Except.map]
  | slot =>
    change (Slot.ofInt n).map slot = .ok o ↔ (Slot.ofInt? n).map slot = some o
    unfold Slot.ofInt
    cases Slot.ofInt? n <;> simp [Except.map]
  | argument =>
    change (Slot.ofInt n).map slot = .ok o ↔ (Slot.ofInt? n).map slot = some o
    unfold Slot.ofInt
    cases Slot.ofInt? n <;> simp [Except.map]
  | label =>
    change (Label.ofInt n).map label = .ok o ↔ (Label.ofInt? n).map label = some o
    unfold Label.ofInt
    cases Label.ofInt? n <;> simp [Except.map]
  | _ =>
    change Except.error _ = Except.ok o ↔ none = some o
    simp

theorem ofBare_str {s : String} :
    ofBare (some shape) (.str s) = .ok o ↔ shape = .string ∧ o = .string s := by
  cases shape with
  | string =>
    change Except.ok (string s) = .ok o ↔ _
    simp [eq_comm]
  | _ =>
    change Except.error _ = Except.ok o ↔ _
    simp

/-- A truth value passes for a number at first, but is none. -/
theorem ofBare_bool {b : Bool} : ofBare (some shape) (.bool b) ≠ .ok o := by
  intro h
  cases shape <;> cases h

/-- Only numbers and texts are operands without saying their kind. -/
theorem ofBare_eq_ok_iff :
    ofBare (some shape) x = .ok o ↔
      (∃ n, x = .int n ∧ ofNumber? shape n = some o) ∨
        ∃ s, x = .str s ∧ shape = .string ∧ o = .string s := by
  cases x with
  | int n => simp [ofBare_int]
  | str s => simp [ofBare_str]
  | bool b => simpa using ofBare_bool
  | _ =>
    refine iff_of_false (fun h => ?_) (by simp)
    cases shape <;> cases h

theorem tagged_eq_of_ofNumber? (h : ofNumber? shape n = some o) :
    tagged shape (.int n) = o.toJson := by
  cases shape with
  | integer =>
    obtain ⟨c, hc, rfl⟩ := Option.map_eq_some_iff.mp h
    rw [← Constant.value_of_ofInt? hc]
    rfl
  | slot =>
    obtain ⟨s, hs, rfl⟩ := Option.map_eq_some_iff.mp h
    rw [← Slot.index_of_ofInt? hs]
    rfl
  | argument =>
    obtain ⟨s, hs, rfl⟩ := Option.map_eq_some_iff.mp h
    rw [← Slot.index_of_ofInt? hs]
    rfl
  | label =>
    obtain ⟨l, hl, rfl⟩ := Option.map_eq_some_iff.mp h
    rw [← Label.id_of_ofInt? hl]
    rfl
  | _ => cases h

/-- A bare value that is read says, with its kind, just what is written of the operand. -/
theorem tagged_eq_toJson (h : ofBare (some shape) x = .ok o) : tagged shape x = o.toJson := by
  rcases ofBare_eq_ok_iff.mp h with ⟨n, rfl, hn⟩ | ⟨s, rfl, rfl, rfl⟩
  · exact tagged_eq_of_ofNumber? hn
  · rfl

variable {table : Option MemberTable}

theorem ofJson_of_bare (hobj : ∀ fields, x ≠ .obj fields) :
    ofJson table (some shape) x = (ofBare (some shape) x).mapError .operand := by
  cases x with
  | obj fields => exact absurd rfl (hobj fields)
  | _ => rfl

theorem ofJson_bare_eq_ok_iff (hobj : ∀ fields, x ≠ .obj fields) :
    ofJson table (some shape) x = .ok o ↔ ofBare (some shape) x = .ok o := by
  rw [ofJson_of_bare hobj]
  constructor
  · exact ok_of_mapError
  · intro h
    rw [h]
    rfl

end Operand

/-! ## Instructions with an operand only -/

namespace Instruction

variable {op : Opcode} {name v : Json} {table : Option MemberTable}

/-- A name of an opcode and an operand as a document. -/
def written (name v : Json) : Json := .obj [("op", name), ("operand", v)]

theorem ofJson_written (hop : Opcode.ofJson name = .ok op) (hnull : v ≠ .null) :
    ofJson table (written name v) =
      (Operand.ofJson table (some op.shape) v >>= fun o =>
        (make op (some o) [] []).mapError .operand) := by
  have hopcode : opcodeOf (written name v) = .ok op := by
    change (Opcode.ofJson name).mapError Fault.noOpcode = _
    rw [hop]
    rfl
  have hoperand : (written name v).present? "operand" = .ok (some v) := by
    refine Json.present?_eq rfl ?_
    intro z hz
    cases hz
    exact hnull
  have hbeside : Operand.beside table op (written name v) =
      (Operand.ofJson table (some op.shape) v).map some := by
    unfold Operand.beside
    simp only [hoperand, bind, Except.bind]
    cases Operand.ofJson table (some op.shape) v <;> rfl
  unfold ofJson
  simp only [hopcode, hbeside, bind, Except.bind]
  cases Operand.ofJson table (some op.shape) v <;> rfl

/-- A value is read with its opcode when it is an operand that the opcode accepts. -/
theorem ofJson_written_eq_ok_iff (hop : Opcode.ofJson name = .ok op) (hnull : v ≠ .null)
    {i : Instruction} :
    ofJson table (written name v) = .ok i ↔
      ∃ o, Operand.ofJson table (some op.shape) v = .ok o ∧ make op (some o) [] [] = .ok i := by
  rw [ofJson_written hop hnull]
  constructor
  · intro h
    obtain ⟨o, ho, hmake⟩ := ok_of_bind h
    exact ⟨o, ho, ok_of_mapError hmake⟩
  · rintro ⟨o, ho, hmake⟩
    rw [ho]
    exact congrArg (Except.mapError Fault.operand) hmake

/-- What is wrong with a bare value is wrong with it as an operand. -/
theorem fault_of_bare (hop : Opcode.ofJson name = .ok op) (hnull : v ≠ .null)
    (hobj : ∀ fields, v ≠ .obj fields) {f : Fault} (h : ofJson table (written name v) = .error f) :
    ∃ g, f = .operand g := by
  rw [ofJson_written hop hnull, Operand.ofJson_of_bare hobj] at h
  cases hread : Operand.ofBare (some op.shape) v with
  | error g =>
    rw [hread] at h
    cases h
    exact ⟨g, rfl⟩
  | ok o =>
    rw [hread] at h
    change (make op (some o) [] []).mapError Fault.operand = .error f at h
    cases hmake : make op (some o) [] [] with
    | error g =>
      rw [hmake] at h
      cases h
      exact ⟨g, rfl⟩
    | ok i =>
      rw [hmake] at h
      cases h

/-! ## The laws -/

/-- Let a value that is neither null nor an object stand beside an opcode. It is read when it is a
number that the opcode takes, or a text and the opcode loads texts. It is then the operand which is
written with the kind that the opcode asks for, and written so it is read as the same, by whatever
members. Every refusal is one of the operand. -/
theorem a_bare_operand_is_a_number_that_its_opcode_takes_or_a_text_to_load
    (table : Option MemberTable) (hop : Opcode.ofJson name = .ok op) (hnull : v ≠ .null)
    (hobj : ∀ fields, v ≠ .obj fields) :
    ((∃ i, ofJson table (written name v) = .ok i) ↔
      (∃ n, v = .int n ∧ op.Takes n) ∨ ∃ s, v = .str s ∧ op = .ldstr) ∧
    (∀ i, ofJson table (written name v) = .ok i →
      i.opcode = op ∧ i.operand.map Operand.toJson = some (Operand.tagged op.shape v) ∧
        ∀ table', ofJson table' (written name (Operand.tagged op.shape v)) = .ok i) ∧
    ∀ f, ofJson table (written name v) = .error f → ∃ g, f = .operand g := by
  refine ⟨?_, ?_, ?_⟩
  · simp only [ofJson_written_eq_ok_iff hop hnull, Operand.ofJson_bare_eq_ok_iff hobj,
      Operand.ofBare_eq_ok_iff, Opcode.shape_eq_string_iff]
    constructor
    · rintro ⟨i, o, ⟨n, hv, ho⟩ | ⟨s, hv, hldstr, -⟩, hmake⟩
      · exact .inl ⟨n, hv, Opcode.takes_iff.mpr ⟨o, ho, (make_eq_ok hmake).1⟩⟩
      · exact .inr ⟨s, hv, hldstr⟩
    · rintro (⟨n, hv, htakes⟩ | ⟨s, hv, rfl⟩)
      · obtain ⟨o, ho, hcheck⟩ := Opcode.takes_iff.mp htakes
        exact ⟨_, o, .inl ⟨n, hv, ho⟩, make_of_check hcheck⟩
      · exact ⟨_, .string s, .inr ⟨s, hv, rfl, rfl⟩, make_of_check rfl⟩
  · intro i h
    obtain ⟨o, ho, hmake⟩ := (ofJson_written_eq_ok_iff hop hnull).mp h
    obtain ⟨_, rfl⟩ := make_eq_ok hmake
    rw [Operand.tagged_eq_toJson ((Operand.ofJson_bare_eq_ok_iff hobj).mp ho)]
    refine ⟨rfl, rfl, fun table' => ?_⟩
    rw [ofJson_written_eq_ok_iff hop o.toJson_ne_null]
    exact ⟨o, Operand.ofJson_toJson table' (some op.shape) o, hmake⟩
  · intro f h
    exact fault_of_bare hop hnull hobj h

/-- An opcode with a number that it takes and with a truth value. -/
theorem a_number_and_a_truth_value_beside_a_narrow_load :
    (∃ i, ofJson none (written (.str "ldc.i4.s") (.int 127)) = .ok i ∧
      ofJson none (written (.str "ldc.i4.s") (.obj [("kind", .str "int"), ("value", .int 127)])) =
        .ok i) ∧
    ∃ g, ofJson none (written (.str "ldc.i4.s") (.bool true)) = .error (.operand g) := by
  have hop : Opcode.ofJson (.str "ldc.i4.s") = .ok .ldcI4S := Opcode.ofJson_mnemonic .ldcI4S
  constructor
  · obtain ⟨hread, htagged, -⟩ :=
      a_bare_operand_is_a_number_that_its_opcode_takes_or_a_text_to_load none hop
        (v := .int 127) (by simp) (by simp)
    have htakes : Opcode.Takes .ldcI4S 127 := by
      simp [Opcode.Takes, Opcode.shape, Opcode.Holds, Opcode.info, Opcode.boundedConstant]
    obtain ⟨i, hi⟩ := hread.mpr (.inl ⟨127, rfl, htakes⟩)
    exact ⟨i, hi, (htagged i hi).2.2 none⟩
  · obtain ⟨hread, -, hfault⟩ :=
      a_bare_operand_is_a_number_that_its_opcode_takes_or_a_text_to_load none hop
        (v := .bool true) (by simp) (by simp)
    cases h : ofJson none (written (.str "ldc.i4.s") (.bool true)) with
    | ok i =>
      obtain ⟨_, hn, _⟩ | ⟨_, hs, _⟩ := hread.mp ⟨i, h⟩
      · cases hn
      · cases hs
    | error f =>
      obtain ⟨g, rfl⟩ := hfault f h
      exact ⟨g, rfl⟩

end Instruction
end Peephole
