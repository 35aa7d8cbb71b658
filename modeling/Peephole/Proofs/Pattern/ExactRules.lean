-- Exact rules. Such a rule takes any operand, while an instruction takes only what its opcode
-- accepts. Still a rule that no instruction passes is one whose operand the opcode refuses, and the
-- rules made of the instructions of a body find them there again.
import Peephole.Proofs.Instruction.Operands
import Peephole.Proofs.Pattern.Match

namespace Peephole

/-! ## One rule -/

namespace Rule

variable {op : Opcode} {operand : Option Operand}

theorem exact_holds_iff {i : Instruction} :
    (exact op operand).holds i = true ↔
      i.opcode = op ∧ i.logicalOperand? = operand.or op.impliedOperand? := by
  unfold holds
  rw [Bool.and_eq_true, beq_iff_eq, beq_iff_eq]

/-- An instruction that passes shows that the opcode accepts the operand of the rule: it has that
operand, or both leave it to the opcode. -/
theorem check_of_exact_holds {i : Instruction} (h : (exact op operand).holds i = true) :
    op.check operand = .ok () := by
  obtain ⟨rfl, hlogical⟩ := exact_holds_iff.mp h
  cases operand with
  | some o =>
    rw [Option.some_or] at hlogical
    exact Instruction.check_logicalOperand hlogical
  | none =>
    have haccepted := i.accepted
    cases hi : i.operand with
    | none => rwa [hi] at haccepted
    | some x =>
      rw [Instruction.logicalOperand?, hi, Option.some_or, Option.none_or] at hlogical
      obtain ⟨n, hn, _⟩ := Opcode.impliedOperand?_eq_some_iff.mp hlogical.symm
      rw [Opcode.check_none_eq_ok_iff, hn]
      exact .inr rfl

theorem exists_exact_holds_iff :
    (∃ i, (exact op operand).holds i = true) ↔ op.check operand = .ok () := by
  constructor
  · rintro ⟨i, hi⟩
    exact check_of_exact_holds hi
  · intro h
    exact ⟨⟨op, operand, [], [], h⟩, exact_holds_iff.mpr ⟨rfl, rfl⟩⟩

end Rule

/-! ## Rules made of instructions -/

/-- The rule that asks for the opcode of an instruction and its operand as it is written. -/
def Instruction.exactRule (i : Instruction) : Rule := .exact i.opcode i.operand

theorem Instruction.exactRule_holds (i : Instruction) : i.exactRule.holds i = true :=
  Rule.exact_holds_iff.mpr ⟨rfl, rfl⟩

namespace Body

variable {b : Body} {p : Pattern} {start count : Nat}

theorem fitsAt_of_exactRules (h : start + count ≤ b.length)
    (hp : p.rules = ((b.drop start).take count).map Instruction.exactRule) :
    p.FitsAt b start := by
  have hlength : p.length = count := by
    unfold Pattern.length
    rw [hp, List.length_map, List.length_take, List.length_drop]
    omega
  refine ⟨by omega, ?_⟩
  intro k r i hr hi
  rw [hp, List.getElem?_map, Option.map_eq_some_iff] at hr
  obtain ⟨x, hx, rfl⟩ := hr
  rw [List.getElem?_take] at hx
  split at hx
  · rw [List.getElem?_drop, hi] at hx
    cases hx
    exact i.exactRule_holds
  · cases hx

/-- A scan stops at the latest where the pattern is known to fit. -/
theorem exists_scan_le (h : p.FitsAt b start) : ∃ w, b.scan p = some w ∧ w.start ≤ start := by
  rcases b.least_match_cases p with hnone | ⟨w, hw, hleast⟩
  · exact absurd h (hnone start)
  · refine ⟨_, scan_of_least hw hleast, ?_⟩
    have hle : ¬ start < w := fun hlt => hleast start hlt h
    simp only
    omega

end Body

/-! ## The laws -/

/-- Some instruction passes an exact rule exactly when an instruction can be made of what the rule
names, and then those pass that have the opcode and the operand, written or implied, of that
instruction. The rules made of neighbouring instructions of a body fit it where these stand. -/
theorem exact_rules_match_what_instructions_can_be :
    (∀ (op : Opcode) (operand : Option Operand),
      ((∃ i : Instruction, (Rule.exact op operand).holds i = true) ↔
        ∃ x, Instruction.make op operand [] [] = .ok x) ∧
      ∀ x, Instruction.make op operand [] [] = .ok x → ∀ i : Instruction,
        (Rule.exact op operand).holds i = true ↔
          i.opcode = op ∧ i.logicalOperand? = x.logicalOperand?) ∧
    ∀ (b : Body) (start count : Nat) (name : String), 0 < count → start + count ≤ b.length →
      ∃ p, Pattern.ofRules? name (((b.drop start).take count).map Instruction.exactRule) = some p ∧
        p.matchesAt b start = true ∧ ∃ w, b.scan p = some w ∧ w.start ≤ start := by
  refine ⟨fun op operand => ⟨?_, ?_⟩, ?_⟩
  · rw [Rule.exists_exact_holds_iff, Instruction.exists_make_iff]
  · intro x hx i
    obtain ⟨_, rfl⟩ := Instruction.make_eq_ok hx
    exact Rule.exact_holds_iff
  · intro b start count name hcount hin
    have hrules : ((b.drop start).take count).map Instruction.exactRule ≠ [] := by
      rw [← List.length_pos_iff, List.length_map, List.length_take, List.length_drop]
      omega
    refine ⟨⟨name, _, hrules⟩, ?_, ?_⟩
    · unfold Pattern.ofRules?
      rw [dif_neg hrules]
    · have hfit := Body.fitsAt_of_exactRules (p := ⟨name, _, hrules⟩) hin rfl
      exact ⟨Pattern.matchesAt_iff.mpr hfit, Body.exists_scan_le hfit⟩

end Peephole
