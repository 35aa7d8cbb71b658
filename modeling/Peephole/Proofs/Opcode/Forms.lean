-- The forms of opcodes. The opcodes of one class differ in how they hold a number: a short form
-- implies one, and of the others a narrow one takes fewer numbers than a wide one. The choice for a
-- number takes the first of these that can hold it, which is the shortest of its class.
import Mathlib.Algebra.Ring.Int.Defs
import Peephole.Opcode.Compact
import Peephole.Proofs.Instruction.Operands

namespace Peephole.Opcode

/-- How long the form of an opcode is: shortest are the opcodes that imply their operand, then come
those with a mnemonic that ends in ".s", and then the full ones. -/
def formLength (op : Opcode) : Nat :=
  if op.info.implied.isSome then 0 else if ".s".toList.isSuffixOf op.mnemonic.toList then 1 else 2

/-- An opcode of a class that takes a number, while no shorter one of the class does. -/
structure ShortestFor (c : EncodingClass) (n : Int) (op : Opcode) : Prop where
  encoding : op.encoding = c
  takes : op.checkNumber n = .ok ()
  least : ∀ other : Opcode, other.encoding = c → other.checkNumber n = .ok () →
    op.formLength ≤ other.formLength

variable {op : Opcode} {n : Int}

theorem checkBounds_eq_ok_iff :
    op.checkBounds n = .ok () ↔
      (∀ least ∈ op.info.least, least ≤ n) ∧ ∀ greatest ∈ op.info.greatest, n ≤ greatest := by
  unfold checkBounds
  split
  · rename_i least hleast
    obtain ⟨hmem, hlt⟩ := Option.filter_eq_some_iff.mp hleast
    have hlt := of_decide_eq_true hlt
    refine iff_of_false nofun fun h => ?_
    have := h.1 least hmem
    omega
  · rename_i hleast
    split
    · rename_i greatest hgreatest
      obtain ⟨hmem, hlt⟩ := Option.filter_eq_some_iff.mp hgreatest
      have hlt := of_decide_eq_true hlt
      refine iff_of_false nofun fun h => ?_
      have := h.2 greatest hmem
      omega
    · rename_i hgreatest
      rw [Option.filter_eq_none_iff] at hleast hgreatest
      refine iff_of_true rfl ⟨fun least h => ?_, fun greatest h => ?_⟩
      · simpa using hleast least h
      · simpa using hgreatest greatest h

theorem checkNumber_of_bounds (h : op.info.implied = none) :
    op.checkNumber n = .ok () ↔
      (∀ least ∈ op.info.least, least ≤ n) ∧ ∀ greatest ∈ op.info.greatest, n ≤ greatest := by
  unfold checkNumber
  rw [h]
  exact checkBounds_eq_ok_iff

/-! ## The forms of one class -/

/-- The opcodes of a class are the short forms, a narrow one and a wide one. -/
structure SlotFamily.FormsOf (f : SlotFamily) (c : EncodingClass) : Prop where
  implied : ∀ x ∈ f.implied, x.2.encoding = c ∧ x.2.info.implied = some x.1
  narrow : f.narrow.encoding = c ∧ f.narrow.formLength = 1
  wide : f.wide.encoding = c ∧ f.wide.formLength = 2
  complete : ∀ op : Opcode, op.encoding = c →
    op = f.narrow ∨ op = f.wide ∨ ∃ x ∈ f.implied, x.2 = op

namespace SlotFamily.FormsOf

variable {f : SlotFamily} {c : EncodingClass}

theorem shortest_implied (hf : f.FormsOf c) (h : f.implied.lookup n = some op) :
    ShortestFor c n op := by
  obtain ⟨before, after, hforms, _⟩ := List.lookup_eq_some_iff.mp h
  obtain ⟨hencoding, himplied⟩ := hf.implied (n, op) (by simp [hforms])
  refine ⟨hencoding, (checkNumber_of_implied himplied).mpr rfl, ?_⟩
  intro other _ _
  simp [formLength, himplied]

/-- A number that no short form implies is for one of the two other forms. -/
theorem narrow_or_wide (hf : f.FormsOf c) (h : f.implied.lookup n = none)
    (hop : op.encoding = c) (hn : op.checkNumber n = .ok ()) : op = f.narrow ∨ op = f.wide := by
  rcases hf.complete op hop with hnarrow | hwide | ⟨x, hx, rfl⟩
  · exact .inl hnarrow
  · exact .inr hwide
  · rw [checkNumber_of_implied (hf.implied x hx).2] at hn
    have := List.lookup_eq_none_iff.mp h x hx
    simp [hn] at this

theorem shortest_narrow (hf : f.FormsOf c) (h : f.implied.lookup n = none)
    (hn : f.narrow.checkNumber n = .ok ()) : ShortestFor c n f.narrow := by
  refine ⟨hf.narrow.1, hn, ?_⟩
  intro other hother htakes
  rcases hf.narrow_or_wide h hother htakes with rfl | rfl
  · exact Nat.le_refl _
  · rw [hf.narrow.2, hf.wide.2]
    decide

theorem shortest_wide (hf : f.FormsOf c) (h : f.implied.lookup n = none)
    (hnarrow : f.narrow.checkNumber n ≠ .ok ()) (hn : f.wide.checkNumber n = .ok ()) :
    ShortestFor c n f.wide := by
  refine ⟨hf.wide.1, hn, ?_⟩
  intro other hother htakes
  rcases hf.narrow_or_wide h hother htakes with rfl | rfl
  · exact absurd htakes hnarrow
  · exact Nat.le_refl _

end SlotFamily.FormsOf

/-! ## The choice for a constant -/

/-- The opcodes that load an integer constant. -/
def constantForms : SlotFamily := ⟨impliedConstants, ldcI4S, ldcI4⟩

theorem constantForms_formsOf : constantForms.FormsOf .loadIntConstant where
  implied := by decide
  narrow := by decide
  wide := by decide
  complete := by decide

theorem ldcI4S_takes_iff : ldcI4S.checkNumber n = .ok () ↔ -128 ≤ n ∧ n ≤ 127 := by
  rw [checkNumber_of_bounds rfl]
  simp [info, boundedConstant]

theorem ldcI4_takes_iff : ldcI4.checkNumber n = .ok () ↔ -2 ^ 31 ≤ n ∧ n ≤ 2 ^ 31 - 1 := by
  rw [checkNumber_of_bounds rfl]
  simp [info, boundedConstant]

theorem compactInt_of_fits (h : -2 ^ 31 ≤ n ∧ n ≤ 2 ^ 31 - 1) :
    ∃ op, compactInt n = .ok op ∧ ShortestFor .loadIntConstant n op := by
  have hforms := constantForms_formsOf
  unfold compactInt
  cases hl : impliedConstants.lookup n with
  | some op => exact ⟨op, rfl, hforms.shortest_implied hl⟩
  | none =>
    simp only
    by_cases hn : -128 ≤ n ∧ n ≤ 127
    · rw [if_pos hn]
      exact ⟨_, rfl, hforms.shortest_narrow hl (ldcI4S_takes_iff.mpr hn)⟩
    · rw [if_neg hn, if_pos (by omega)]
      exact ⟨_, rfl, hforms.shortest_wide hl (mt ldcI4S_takes_iff.mp hn) (ldcI4_takes_iff.mpr h)⟩

theorem compactInt_of_not_fits (h : ¬ (-2 ^ 31 ≤ n ∧ n ≤ 2 ^ 31 - 1)) :
    compactInt n = .error (.tooWide n) := by
  have hsmall : ∀ x ∈ impliedConstants, -1 ≤ x.1 ∧ x.1 ≤ 8 := by decide
  have hl : impliedConstants.lookup n = none := by
    rw [List.lookup_eq_none_iff]
    intro x hx
    have := hsmall x hx
    rw [bne_iff_ne]
    omega
  unfold compactInt
  rw [hl]
  simp only
  rw [if_neg (by omega), if_neg (by omega)]

/-! ## The choice for a local variable -/

variable {f : SlotFamily} {c : EncodingClass}

theorem slotFamily_formsOf (h : slotFamily? c = some f) : f.FormsOf c := by
  cases c <;> cases h <;> exact ⟨by decide, by decide, by decide, by decide⟩

theorem checkNumber_of_greatest {greatest : Int} (hi : op.info.implied = none)
    (hl : op.info.least = none) (hg : op.info.greatest = some greatest) :
    op.checkNumber n = .ok () ↔ n ≤ greatest := by
  rw [checkNumber_of_bounds hi, hl, hg]
  simp

theorem narrow_takes_iff (h : slotFamily? c = some f) :
    f.narrow.checkNumber n = .ok () ↔ n ≤ 255 := by
  cases c <;> cases h <;> exact checkNumber_of_greatest rfl rfl rfl

theorem wide_takes_iff (h : slotFamily? c = some f) :
    f.wide.checkNumber n = .ok () ↔ n ≤ 65535 := by
  cases c <;> cases h <;> exact checkNumber_of_greatest rfl rfl rfl

theorem compactLocal_of_fits (hf : slotFamily? c = some f) (h₀ : 0 ≤ n) (h₁ : n ≤ 65535) :
    ∃ op, compactLocal c n = .ok op ∧ ShortestFor c n op := by
  have hforms := slotFamily_formsOf hf
  unfold compactLocal
  rw [if_neg (by omega), hf]
  simp only
  cases hl : f.implied.lookup n with
  | some op => exact ⟨op, rfl, hforms.shortest_implied hl⟩
  | none =>
    refine ⟨_, rfl, ?_⟩
    split
    · rename_i hn
      exact hforms.shortest_narrow hl ((narrow_takes_iff hf).mpr hn)
    · rename_i hn
      exact hforms.shortest_wide hl (mt (narrow_takes_iff hf).mp hn) ((wide_takes_iff hf).mpr h₁)

theorem compactLocal_of_not_fits (h : ¬ (0 ≤ n ∧ n ≤ 65535)) :
    compactLocal c n = .error (.noSuchSlot n) := by
  unfold compactLocal
  rw [if_pos (by omega)]

end Peephole.Opcode
