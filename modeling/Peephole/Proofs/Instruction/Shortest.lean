-- Builders. Each builder gives the shortest instruction that loads a constant, or that works on a
-- local variable, and the rules for common needs find just what the builders give.
import Peephole.Instruction.Build
import Peephole.Pattern.Rule
import Peephole.Proofs.Opcode.Forms

namespace Peephole

/-! ## Families of local variables -/

/-- What is done with a local variable. -/
inductive LocalFamily where
  | load | store | address
  deriving DecidableEq

namespace LocalFamily

/-- The class of a family. -/
def encoding : LocalFamily → EncodingClass
  | load => .loadLocal
  | store => .storeLocal
  | address => .loadLocalAddress

/-- The builder of a family. -/
def build : LocalFamily → Int → Except BuildFault Instruction
  | load => Instruction.loadLocal
  | store => Instruction.storeLocal
  | address => Instruction.loadLocalAddress

/-- The rule for a family. -/
def rule : LocalFamily → Int → Rule
  | load => Rule.loadLocal
  | store => Rule.storeLocal
  | address => Rule.loadLocalAddress

variable (f : LocalFamily)

theorem encoding_injective {f g : LocalFamily} : f.encoding = g.encoding ↔ f = g := by
  cases f <;> cases g <;> decide

theorem build_eq (index : Int) : f.build index = Instruction.ofLocal f.encoding index := by
  cases f <;> rfl

theorem rule_eq (index : Int) :
    f.rule index = .anyOf (.singleton f.encoding) (some (.predicate (.slot index))) := by
  cases f <;> rfl

theorem exists_slotFamily : ∃ forms, Opcode.slotFamily? f.encoding = some forms := by
  cases f <;> exact ⟨_, rfl⟩

end LocalFamily

/-! ## Shapes of classes -/

theorem Opcode.shape_of_loadIntConstant :
    ∀ op : Opcode, op.encoding = .loadIntConstant → op.shape = .integer := by decide

theorem Opcode.shape_of_localFamily (f : LocalFamily) :
    ∀ op : Opcode, op.encoding = f.encoding → op.shape = .slot := by
  cases f <;> decide

/-! ## Building -/

namespace Instruction

/-- An instruction of a class with an operand, written or implied, while no instruction of the class
with that operand has a shorter form. -/
structure ShortestFor (c : EncodingClass) (o : Operand) (x : Instruction) : Prop where
  encoding : x.encoding = c
  operand : x.logicalOperand? = some o
  least : ∀ y : Instruction, y.encoding = c → y.logicalOperand? = some o →
    x.opcode.formLength ≤ y.opcode.formLength

variable {op : Opcode} {o : Operand} {n : Int}

/-- An opcode that takes a number gives an instruction with it, whether or not it implies it. -/
theorem ofNumber_of_takes (ho : o.number? = some n) (hfits : Opcode.fitsShape op.shape o = true)
    (hn : op.checkNumber n = .ok ()) :
    ∃ x, ofNumber op (.ok o) = .ok x ∧ x.opcode = op ∧ x.logicalOperand? = some o := by
  unfold ofNumber
  cases hi : op.info.implied with
  | some m =>
    rw [Opcode.checkNumber_of_implied hi] at hn
    subst hn
    have hcheck : op.check none = .ok () := by
      rw [Opcode.check_none_eq_ok_iff, hi]
      exact .inr rfl
    rw [make_of_check hcheck]
    refine ⟨_, rfl, rfl, ?_⟩
    rw [logicalOperand?, Option.none_or, Opcode.impliedOperand?_eq_some_iff]
    exact ⟨_, hi, hfits, ho⟩
  | none =>
    have hcheck : op.check (some o) = .ok () := by
      rw [Opcode.check_some_eq_ok_iff, Opcode.checkPart_of_number ho]
      exact ⟨hfits, hn⟩
    refine ⟨⟨op, some o, [], [], hcheck⟩, ?_, rfl, rfl⟩
    change (make op (some o) [] []).mapError BuildFault.operand = _
    rw [make_of_check hcheck]
    rfl

/-- The shortest opcode for a number gives the shortest instruction with it. -/
theorem ofNumber_shortest {c : EncodingClass} (h : Opcode.ShortestFor c n op)
    (ho : o.number? = some n) (hfits : Opcode.fitsShape op.shape o = true) :
    ∃ x, ofNumber op (.ok o) = .ok x ∧ x.ShortestFor c o := by
  obtain ⟨x, hx, rfl, hoperand⟩ := ofNumber_of_takes ho hfits h.takes
  refine ⟨x, hx, h.encoding, hoperand, ?_⟩
  intro y hy hlogical
  refine h.least y.opcode hy ?_
  rw [← Opcode.checkPart_of_number ho]
  exact (Opcode.check_some_eq_ok_iff.mp (check_logicalOperand hlogical)).2

theorem loadInt_of_fits (c : Constant) (h : -2 ^ 31 ≤ c.value ∧ c.value ≤ 2 ^ 31 - 1) :
    ∃ x, loadInt c.value = .ok x ∧ x.ShortestFor .loadIntConstant (.constant c) := by
  obtain ⟨op, hop, hshortest⟩ := Opcode.compactInt_of_fits h
  have hc : Constant.ofInt c.value = .ok c := by
    rw [Constant.ofInt, Constant.ofInt?_value]
  have hfits : Opcode.fitsShape op.shape (.constant c) = true := by
    rw [Opcode.shape_of_loadIntConstant op hshortest.encoding]
    rfl
  unfold loadInt
  rw [hop, hc]
  exact ofNumber_shortest hshortest rfl hfits

theorem loadInt_of_not_fits (h : ¬ (-2 ^ 31 ≤ n ∧ n ≤ 2 ^ 31 - 1)) :
    loadInt n = .error (.encoding (.tooWide n)) := by
  unfold loadInt
  rw [Opcode.compactInt_of_not_fits h]
  rfl

end Instruction

namespace LocalFamily

open Instruction (ShortestFor)

theorem build_of_slot (f : LocalFamily) (s : Slot) :
    ∃ x, f.build s.index = .ok x ∧ ShortestFor f.encoding (.slot s) x := by
  have hindex := s.fits
  obtain ⟨forms, hforms⟩ := f.exists_slotFamily
  obtain ⟨op, hop, hshortest⟩ := Opcode.compactLocal_of_fits (n := s.index) hforms (by omega)
    (by omega)
  have hs : Slot.ofInt s.index = .ok s := by
    rw [Slot.ofInt, Slot.ofInt?_index]
  have hfits : Opcode.fitsShape op.shape (.slot s) = true := by
    rw [Opcode.shape_of_localFamily f op hshortest.encoding]
    rfl
  rw [build_eq]
  unfold Instruction.ofLocal
  rw [hop, hs]
  exact Instruction.ofNumber_shortest hshortest rfl hfits

theorem build_of_no_slot (f : LocalFamily) {n : Int} (h : ¬ (0 ≤ n ∧ n ≤ 65535)) :
    f.build n = .error (.encoding (.noSuchSlot n)) := by
  rw [build_eq]
  unfold Instruction.ofLocal
  rw [Opcode.compactLocal_of_not_fits h]
  rfl

end LocalFamily

/-! ## The rules -/

namespace Rule

theorem anyOf_singleton_holds_iff {c : EncodingClass} {p : Predicate} {x : Instruction} :
    (anyOf (.singleton c) (some (.predicate p))).holds x = true ↔
      x.encoding = c ∧ p.holds x.logicalOperand? = true := by
  unfold holds
  simp [ClassSet.singleton, Condition.holds]

theorem anyConstant_holds_iff {x : Instruction} {c : Constant}
    (h : x.ShortestFor .loadIntConstant (.constant c)) {value : Int} :
    (anyConstant (some value)).holds x = true ↔ c.value = value := by
  unfold anyConstant
  rw [anyOf_singleton_holds_iff, h.encoding, h.operand]
  simp [Predicate.holds]

theorem localRule_holds_iff {f : LocalFamily} {x : Instruction} {s : Slot}
    (h : x.ShortestFor f.encoding (.slot s)) {g : LocalFamily} {index : Int} :
    (g.rule index).holds x = true ↔ f = g ∧ s.index = index := by
  rw [LocalFamily.rule_eq, anyOf_singleton_holds_iff, h.encoding, h.operand,
    LocalFamily.encoding_injective]
  simp [Predicate.holds]

end Rule

/-! ## The laws -/

/-- A constant of thirty-two bits can be loaded and no other, and a local variable can be reached by
its index up to the greatest one. What is built is the shortest instruction of its class that does
this, and the rule for a constant or for a family and an index holds of it exactly when these are the
ones it was built for. -/
theorem builders_give_the_shortest_that_their_rules_find :
    (∀ value : Int,
      (¬ (-2 ^ 31 ≤ value ∧ value ≤ 2 ^ 31 - 1) →
        Instruction.loadInt value = .error (.encoding (.tooWide value))) ∧
      (-2 ^ 31 ≤ value ∧ value ≤ 2 ^ 31 - 1 →
        ∃ x c, Instruction.loadInt value = .ok x ∧ c.value = value ∧
          x.ShortestFor .loadIntConstant (.constant c) ∧
          ∀ asked, (Rule.anyConstant (some asked)).holds x = true ↔ value = asked)) ∧
    ∀ (f : LocalFamily) (index : Int),
      (¬ (0 ≤ index ∧ index ≤ 65535) →
        f.build index = .error (.encoding (.noSuchSlot index))) ∧
      (0 ≤ index ∧ index ≤ 65535 →
        ∃ x s, f.build index = .ok x ∧ s.index = index ∧
          x.ShortestFor f.encoding (.slot s) ∧
          ∀ g asked, (LocalFamily.rule g asked).holds x = true ↔ f = g ∧ index = asked) := by
  refine ⟨fun value => ⟨Instruction.loadInt_of_not_fits, ?_⟩,
    fun f index => ⟨f.build_of_no_slot, ?_⟩⟩
  · intro h
    obtain ⟨x, hx, hshortest⟩ := Instruction.loadInt_of_fits ⟨value, by omega⟩ h
    exact ⟨x, _, hx, rfl, hshortest, fun asked => Rule.anyConstant_holds_iff hshortest⟩
  · rintro ⟨h₀, h₁⟩
    obtain ⟨k, rfl⟩ := Int.eq_ofNat_of_zero_le h₀
    obtain ⟨x, hx, hshortest⟩ := f.build_of_slot ⟨k, by omega⟩
    exact ⟨x, _, hx, rfl, hshortest, fun g asked => Rule.localRule_holds_iff hshortest⟩

/-- At its bounds a form gives way to the next one. -/
example :
    ([-129, -128, -1, 8, 9, 127, 128].map fun n => (Instruction.loadInt n).toOption.map (·.opcode)) =
      [some .ldcI4, some .ldcI4S, some .ldcI4M1, some .ldcI48, some .ldcI4S, some .ldcI4S,
        some .ldcI4] := by decide

end Peephole
