-- Operands that an opcode accepts. A number is accepted by an opcode whose kind of operand it is
-- when it is the implied one or lies within the bounds. So the operand that a short form implies is
-- one it accepts when it is written, and an instruction is never without a valid operand.
import Peephole.Instruction.Basic

namespace Peephole

/-- The number that an operand is. -/
def Operand.number? : Operand → Option Int
  | constant c => some c.value
  | slot s => some s.index
  | _ => none

theorem Constant.value_of_ofInt? {n : Int} {c : Constant} (h : Constant.ofInt? n = some c) :
    c.value = n := by
  unfold ofInt? at h
  split at h <;> cases h
  rfl

theorem Slot.index_of_ofInt? {n : Int} {s : Slot} (h : Slot.ofInt? n = some s) : s.index = n := by
  unfold ofInt? at h
  split at h <;> cases h
  simp only
  omega

namespace Opcode

variable {op : Opcode} {o : Operand} {n : Int}

/-! ## What is accepted -/

theorem fitsShape_none : fitsShape .none o = false := by
  cases o <;> rfl

theorem fitsShape_integer : fitsShape .integer o = true ↔ ∃ c, o = .constant c := by
  cases o <;> simp [fitsShape]

theorem fitsShape_string : fitsShape .string o = true ↔ ∃ s, o = .string s := by
  cases o <;> simp [fitsShape]

theorem fitsShape_field : fitsShape .field o = true ↔ ∃ f, o = .field f := by
  cases o <;> simp [fitsShape]

theorem fitsShape_method : fitsShape .method o = true ↔ ∃ m, o = .method m := by
  cases o <;> simp [fitsShape]

theorem fitsShape_label : fitsShape .label o = true ↔ ∃ l, o = .label l := by
  cases o <;> simp [fitsShape]

theorem fitsShape_slot {shape : OperandShape} (h : shape = .slot ∨ shape = .argument) :
    fitsShape shape o = true ↔ ∃ s, o = .slot s := by
  rcases h with rfl | rfl
  · cases o <;> simp [fitsShape]
  · cases o <;> simp [fitsShape]

theorem check_none_eq_ok_iff :
    op.check none = .ok () ↔ op.shape = .none ∨ op.info.implied.isSome = true := by
  by_cases h : op.shape = .none ∨ op.info.implied.isSome = true
  · rw [check, if_pos h]
    exact iff_of_true rfl h
  · rw [check, if_neg h]
    exact iff_of_false nofun h

theorem check_some_eq_ok_iff :
    op.check (some o) = .ok () ↔ fitsShape op.shape o = true ∧ op.checkPart o = .ok () := by
  by_cases hnone : op.shape = .none
  · simp [check, hnone, fitsShape_none]
  · by_cases hfits : fitsShape op.shape o = true
    · simp [check, hnone, hfits]
    · simp [check, hnone, hfits]

theorem checkNumber_of_implied (h : op.info.implied = some n) {m : Int} :
    op.checkNumber m = .ok () ↔ m = n := by
  unfold checkNumber
  rw [h]
  simp

theorem checkPart_of_number (h : o.number? = some n) : op.checkPart o = op.checkNumber n := by
  cases o <;> cases h <;> rfl

/-! ## What is implied -/

theorem shape_of_implied {op : Opcode} (h : op.info.implied.isSome = true) :
    op.shape = .integer ∨ op.shape = .slot ∨ op.shape = .argument := by
  revert op
  decide

/-- The implied operand is the one of the right kind that is the implied number. -/
theorem impliedOperand?_eq_some_iff :
    op.impliedOperand? = some o ↔
      ∃ n, op.info.implied = some n ∧ fitsShape op.shape o = true ∧ o.number? = some n := by
  unfold impliedOperand?
  rw [Option.bind_eq_some_iff]
  refine exists_congr fun n => and_congr_right fun hn => ?_
  have himplied : op.info.implied.isSome = true := Option.isSome_of_eq_some hn
  rcases shape_of_implied himplied with hshape | hshape
  · rw [hshape, if_pos rfl, Option.map_eq_some_iff, fitsShape_integer]
    constructor
    · rintro ⟨c, hc, rfl⟩
      exact ⟨⟨c, rfl⟩, congrArg some (Constant.value_of_ofInt? hc)⟩
    · rintro ⟨⟨c, rfl⟩, hnumber⟩
      cases hnumber
      exact ⟨c, Constant.ofInt?_value c, rfl⟩
  · have hne : op.shape ≠ .integer := by rcases hshape with h | h <;> simp [h]
    rw [if_neg hne, Option.map_eq_some_iff, fitsShape_slot hshape]
    constructor
    · rintro ⟨s, hs, rfl⟩
      exact ⟨⟨s, rfl⟩, congrArg some (Slot.index_of_ofInt? hs)⟩
    · rintro ⟨⟨s, rfl⟩, hnumber⟩
      cases hnumber
      exact ⟨s, Slot.ofInt?_index s, rfl⟩

/-- An implied operand may be written out. -/
theorem check_impliedOperand (h : op.impliedOperand? = some o) : op.check (some o) = .ok () := by
  obtain ⟨n, hn, hfits, hnumber⟩ := impliedOperand?_eq_some_iff.mp h
  rw [check_some_eq_ok_iff, checkPart_of_number hnumber, checkNumber_of_implied hn]
  exact ⟨hfits, rfl⟩

end Opcode

namespace Instruction

variable {op : Opcode} {operand : Option Operand} {labels : List Label} {markers : List Marker}

/-- The operand of an instruction, written or implied, is one that its opcode accepts. -/
theorem check_logicalOperand {i : Instruction} {o : Operand} (h : i.logicalOperand? = some o) :
    i.opcode.check (some o) = .ok () := by
  unfold logicalOperand? at h
  cases hi : i.operand with
  | none =>
    rw [hi, Option.none_or] at h
    exact Opcode.check_impliedOperand h
  | some x =>
    rw [hi, Option.some_or] at h
    rw [← h, ← hi]
    exact i.accepted

/-- An operand that no opcode implies is written. -/
theorem exists_operand {i : Instruction}
    (h : i.opcode.shape ∉ [.none, .integer, .slot, .argument]) :
    ∃ o, i.operand = some o ∧ Opcode.fitsShape i.opcode.shape o = true := by
  simp only [List.mem_cons, List.not_mem_nil, or_false, not_or] at h
  obtain ⟨hnone, hinteger, hslot, hargument⟩ := h
  have haccepted := i.accepted
  cases ho : i.operand with
  | none =>
    rw [ho, Opcode.check_none_eq_ok_iff] at haccepted
    rcases haccepted with hshape | himplied
    · exact absurd hshape hnone
    · rcases Opcode.shape_of_implied himplied with hshape | hshape | hshape
      · exact absurd hshape hinteger
      · exact absurd hshape hslot
      · exact absurd hshape hargument
  | some o =>
    rw [ho, Opcode.check_some_eq_ok_iff] at haccepted
    exact ⟨o, rfl, haccepted.1⟩

/-- Where a method is asked for, one is there. -/
theorem operand_of_method {i : Instruction} (h : i.opcode.shape = .method) :
    ∃ m, i.operand = some (.method m) := by
  obtain ⟨o, ho, hfits⟩ := exists_operand (i := i) (by simp [h])
  rw [h, Opcode.fitsShape_method] at hfits
  obtain ⟨m, rfl⟩ := hfits
  exact ⟨m, ho⟩

/-- Where a label is asked for, one is there. -/
theorem operand_of_branch {i : Instruction} (h : i.opcode.shape = .label) :
    ∃ l, i.operand = some (.label l) := by
  obtain ⟨o, ho, hfits⟩ := exists_operand (i := i) (by simp [h])
  rw [h, Opcode.fitsShape_label] at hfits
  obtain ⟨l, rfl⟩ := hfits
  exact ⟨l, ho⟩

theorem branchTarget?_eq_some_iff {i : Instruction} {l : Label} :
    i.branchTarget? = some l ↔ i.operand = some (.label l) := by
  unfold branchTarget?
  split <;> simp_all

theorem make_of_check (h : op.check operand = .ok ()) :
    make op operand labels markers = .ok ⟨op, operand, labels, markers, h⟩ := by
  unfold make
  split
  · rfl
  · rename_i f hf
    rw [h] at hf
    cases hf

theorem make_eq_ok {x : Instruction} (h : make op operand labels markers = .ok x) :
    ∃ hc : op.check operand = .ok (), x = ⟨op, operand, labels, markers, hc⟩ := by
  unfold make at h
  split at h
  · rename_i hc
    cases h
    exact ⟨hc, rfl⟩
  · cases h

theorem exists_make_iff :
    (∃ x, make op operand labels markers = .ok x) ↔ op.check operand = .ok () := by
  constructor
  · rintro ⟨x, hx⟩
    exact (make_eq_ok hx).1
  · intro h
    exact ⟨_, make_of_check h⟩

end Instruction

end Peephole
