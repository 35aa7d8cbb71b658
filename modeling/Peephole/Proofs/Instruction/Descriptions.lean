-- Descriptions of instructions. The text of an instruction is its mnemonic and, after a blank, the
-- text of its operand. No mnemonic has a blank, and both a text between quotes and the digits of a
-- number can be read back; so only members, whose parts are not quoted, can be mixed up.
import Mathlib.Data.List.Basic
import Peephole.Instruction.Build
import Peephole.Member.Basic
import Peephole.Proofs.Instruction.Operands
import Peephole.Proofs.Opcode.Names
import Peephole.Proofs.Text.Lines

namespace Peephole

/-! ## Texts in quotes -/

/-- A backslash before each place where a character stands. -/
def backslashed (d : Char) (cs : List Char) : List Char :=
  cs.flatMap fun c => if c = d then ['\\', c] else [c]

/-- What a text stands for between quotes: a backslash goes, and what comes after it stays. -/
def unescaped : List Char → List Char
  | '\\' :: c :: cs => c :: unescaped cs
  | c :: cs => c :: unescaped cs
  | [] => []

theorem unescaped_cons {c : Char} (h : c ≠ '\\') (cs : List Char) :
    unescaped (c :: cs) = c :: unescaped cs := by
  cases cs with
  | nil => simp [unescaped]
  | cons d ds => simp [unescaped, h]

theorem unescaped_flatMap_literalChar (cs : List Char) :
    unescaped (cs.flatMap literalChar) = cs := by
  induction cs with
  | nil => rfl
  | cons c cs ih =>
    rw [List.flatMap_cons]
    by_cases hc : c = '\\' ∨ c = '"'
    · rw [literalChar, if_pos hc]
      exact congrArg (c :: ·) ih
    · rw [literalChar, if_neg hc, List.singleton_append,
        unescaped_cons fun h => hc (.inl h), ih]

theorem toList_literal (s : String) :
    (literal s).toList = '"' :: s.toList.flatMap literalChar ++ ['"'] := by
  unfold literal
  rw [String.toList_ofList]

/-- Two texts in quotes are the same only if the texts are. -/
theorem literal_injective : Function.Injective literal := by
  intro s t h
  have hchars := congrArg String.toList h
  rw [toList_literal, toList_literal] at hchars
  have hinner := (List.cons_eq_cons.mp (List.append_cancel_right hchars)).2
  refine String.toList_injective ?_
  rw [← unescaped_flatMap_literalChar s.toList, hinner, unescaped_flatMap_literalChar]

/-- Escaping both characters at once is escaping backslashes and then quotes. -/
theorem flatMap_literalChar (cs : List Char) :
    cs.flatMap literalChar = backslashed '"' (backslashed '\\' cs) := by
  unfold backslashed
  rw [List.flatMap_assoc]
  refine List.flatMap_congr fun c _ => ?_
  by_cases hslash : c = '\\'
  · subst hslash
    decide
  · by_cases hquote : c = '"'
    · subst hquote
      decide
    · simp [literalChar, hslash, hquote]

/-! ## Numbers -/

/-- Zeros in front do not change what digits are worth. -/
theorem Text.ofDigitChars_padded (width n : Nat) :
    Nat.ofDigitChars 10 (padded width n).toList 0 = n := by
  rw [toList_padded, Nat.ofDigitChars_append, Nat.ofDigitChars_replicate_zero, Nat.mul_zero,
    Nat.ofDigitChars_ten_toDigits]

theorem Text.padded_injective (width : Nat) : Function.Injective (padded width) := by
  intro m n h
  rw [← ofDigitChars_padded width m, h, ofDigitChars_padded]

/-- What digits are worth when there may be a minus sign before them. -/
def Text.worth : List Char → Int
  | '-' :: cs => -Nat.ofDigitChars 10 cs 0
  | cs => Nat.ofDigitChars 10 cs 0

theorem Text.worth_of_not_mem {cs : List Char} (h : '-' ∉ cs) :
    worth cs = Nat.ofDigitChars 10 cs 0 := by
  cases cs with
  | nil => rfl
  | cons c cs =>
    have hc : c ≠ '-' := fun hc => h (hc ▸ List.mem_cons_self)
    simp [worth, hc]

/-- A written integer is worth itself, as no digit is a minus sign. -/
theorem Text.worth_repr (n : Int) : worth n.repr.toList = n := by
  rw [Int.repr_eq_if]
  split
  · rw [Nat.toList_repr, worth_of_not_mem (not_mem_toDigits (by decide) _),
      Nat.ofDigitChars_ten_toDigits, Int.toNat_of_nonneg ‹0 ≤ n›]
  · rw [String.toList_append, Nat.toList_repr]
    change -((Nat.ofDigitChars 10 (Nat.toDigits 10 (-n).toNat) 0 : Nat) : Int) = n
    rw [Nat.ofDigitChars_ten_toDigits]
    omega

/-! ## Operands -/

theorem Constant.eq_of_repr_eq {c d : Constant} (h : c.value.repr = d.value.repr) : c = d := by
  have hvalue : c.value = d.value := by rw [← Text.worth_repr c.value, h, Text.worth_repr]
  cases c
  cases d
  cases hvalue
  rfl

theorem Slot.eq_of_repr_eq {s t : Slot} (h : s.index.repr = t.index.repr) : s = t := by
  -- a slot is written as the integer that its index is
  change (s.index : Int).repr = (t.index : Int).repr at h
  have hindex : (s.index : Int) = t.index := by
    rw [← Text.worth_repr s.index, h, Text.worth_repr]
  cases s
  cases t
  cases hindex
  rfl

theorem Label.describe_injective : Function.Injective Label.describe := by
  intro l k h
  have hid := Text.padded_injective 4 ((String.append_right_inj "L_").mp h)
  cases l
  cases k
  cases hid
  rfl

namespace Opcode

variable {shape : OperandShape} {o p : Operand}

theorem eq_of_describe_slot (hshape : shape = .slot ∨ shape = .argument)
    (ho : fitsShape shape o = true) (hp : fitsShape shape p = true)
    (h : o.describe = p.describe) : o = p := by
  obtain ⟨s, rfl⟩ := (fitsShape_slot hshape).mp ho
  obtain ⟨t, rfl⟩ := (fitsShape_slot hshape).mp hp
  exact congrArg Operand.slot (Slot.eq_of_repr_eq ((String.append_right_inj "V_").mp h))

/-- Operands for one shape have different texts, unless they are members. -/
theorem eq_of_describe_eq (ho : fitsShape shape o = true) (hp : fitsShape shape p = true)
    (hmember : ∀ m : Member, o ≠ m.toOperand) (h : o.describe = p.describe) : o = p := by
  cases shape with
  | none =>
    rw [fitsShape_none] at ho
    cases ho
  | integer =>
    obtain ⟨c, rfl⟩ := fitsShape_integer.mp ho
    obtain ⟨d, rfl⟩ := fitsShape_integer.mp hp
    exact congrArg Operand.constant (Constant.eq_of_repr_eq h)
  | string =>
    obtain ⟨s, rfl⟩ := fitsShape_string.mp ho
    obtain ⟨t, rfl⟩ := fitsShape_string.mp hp
    exact congrArg Operand.string (literal_injective h)
  | field =>
    obtain ⟨f, rfl⟩ := fitsShape_field.mp ho
    exact absurd rfl (hmember (.field f))
  | method =>
    obtain ⟨m, rfl⟩ := fitsShape_method.mp ho
    exact absurd rfl (hmember (.method m))
  | slot => exact eq_of_describe_slot (.inl rfl) ho hp h
  | argument => exact eq_of_describe_slot (.inr rfl) ho hp h
  | label =>
    obtain ⟨l, rfl⟩ := fitsShape_label.mp ho
    obtain ⟨k, rfl⟩ := fitsShape_label.mp hp
    exact congrArg Operand.label (Label.describe_injective h)

end Opcode

namespace Instruction

/-! ## Instructions -/

/-- What a description shows after the mnemonic. -/
def operandPart : Option Operand → List Char
  | some o => ' ' :: o.describe.toList
  | none => []

/-- An instruction that has no operand, or one that is neither a field nor a method. -/
def NamesNoMember (i : Instruction) : Prop := ∀ m : Member, i.operand ≠ some m.toOperand

variable {x y : Instruction}

theorem toList_describe (i : Instruction) :
    i.describe.toList = i.opcode.mnemonic.toList ++ operandPart i.operand := by
  unfold describe
  cases i.operand with
  | none => exact (List.append_nil _).symm
  | some o =>
    rw [String.toList_append, String.toList_append, List.append_assoc]
    rfl

/-- The mnemonic ends at the first blank. -/
theorem parts_of_describe_eq (h : x.describe = y.describe) :
    x.opcode = y.opcode ∧ operandPart x.operand = operandPart y.operand := by
  have hmnemonic : ∀ i : Instruction, ∀ c ∈ i.opcode.mnemonic.toList,
      (!Text.isBlank c) = true := by
    intro i c hc
    rw [(Opcode.mnemonic_chars i.opcode c hc).1]
    rfl
  have hpart : ∀ i : Instruction, ∀ c ∈ (operandPart i.operand).head?,
      (!Text.isBlank c) = false := by
    intro i c hc
    cases ho : i.operand with
    | none =>
      rw [ho] at hc
      cases hc
    | some o =>
      rw [ho] at hc
      cases hc
      decide
  have hchars := congrArg String.toList h
  rw [toList_describe, toList_describe] at hchars
  obtain ⟨hop, hoperand⟩ := Text.append_inj_of_chars (hmnemonic x) (hmnemonic y) (hpart x)
    (hpart y) hchars
  exact ⟨Opcode.mnemonic_injective hop, hoperand⟩

theorem operand_eq_of_parts (hmember : x.NamesNoMember) (hop : x.opcode = y.opcode)
    (h : operandPart x.operand = operandPart y.operand) : x.operand = y.operand := by
  have hx := x.accepted
  have hy := y.accepted
  unfold NamesNoMember at hmember
  rw [← hop] at hy
  cases ho : x.operand with
  | none =>
    cases hp : y.operand with
    | none => rfl
    | some p =>
      rw [ho, hp] at h
      cases h
  | some o =>
    cases hp : y.operand with
    | none =>
      rw [ho, hp] at h
      cases h
    | some p =>
      rw [ho, hp] at h
      rw [ho, Opcode.check_some_eq_ok_iff] at hx
      rw [hp, Opcode.check_some_eq_ok_iff] at hy
      have htext := String.toList_injective (List.cons_eq_cons.mp h).2
      refine congrArg some (Opcode.eq_of_describe_eq hx.1 hy.1 (fun m hm => ?_) htext)
      exact hmember m (ho.trans (congrArg some hm))

/-! ## The laws -/

/-- An instruction that names no field and no method has its text in common only with those of the
same opcode and operand. Texts are put between quotes with a backslash before each backslash and
then one before each quote, so that no two texts look the same. -/
theorem an_instruction_without_a_member_is_known_by_its_text :
    (∀ x y : Instruction, x.NamesNoMember →
      (x.describe = y.describe ↔ x.opcode = y.opcode ∧ x.operand = y.operand)) ∧
    Function.Injective literal ∧
    ∀ s : String, (literal s).toList =
      '"' :: backslashed '"' (backslashed '\\' s.toList) ++ ['"'] := by
  refine ⟨fun x y hmember => ⟨fun h => ?_, ?_⟩, literal_injective, fun s => ?_⟩
  · obtain ⟨hop, hparts⟩ := parts_of_describe_eq h
    exact ⟨hop, operand_eq_of_parts hmember hop hparts⟩
  · rintro ⟨hop, hoperand⟩
    refine String.toList_injective ?_
    rw [toList_describe, toList_describe, hop, hoperand]
  · rw [toList_literal, flatMap_literalChar]

/-- A quote is not taken for a backslash and a quote, which is how it is written. -/
theorem a_quote_and_a_backslash_before_a_quote :
    (loadString "\"").NamesNoMember ∧
      (loadString "\"").describe ≠ (loadString "\\\"").describe := by
  have hmember : (loadString "\"").NamesNoMember := by
    intro m h
    cases m <;> cases h
  refine ⟨hmember, fun h => ?_⟩
  have hsame := (an_instruction_without_a_member_is_known_by_its_text.1 _ _ hmember).mp h
  exact absurd hsame.2 (by decide)

/-- The parts of members are not quoted, and two fields can have one text. -/
example :
    (⟨.ldsfld, some (.field ⟨"A::B", "f", "object", true⟩), [], [], rfl⟩ : Instruction).describe =
      (⟨.ldsfld, some (.field ⟨"A", "B::f", "object", true⟩), [], [], rfl⟩ :
        Instruction).describe := by decide

end Instruction

end Peephole
