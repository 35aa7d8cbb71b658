-- Bodies that differ in their spelling alone. An instruction may spell out an operand that another
-- implies, and may have another opcode that is related to it; what labels, markers and branches
-- say of a body does not depend on that.
import Mathlib.Data.List.Forall2
import Peephole.Body.Removal
import Peephole.Proofs.Instruction.Operands

namespace Peephole

/-- Two opcodes of one class. -/
def Opcode.SameClass (a b : Opcode) : Prop := a.encoding = b.encoding

/-- What a short form implies is a number. -/
theorem Opcode.impliedOperand?_eq_some {op : Opcode} {o : Operand}
    (h : op.impliedOperand? = some o) : (∃ c, o = .constant c) ∨ ∃ s, o = .slot s := by
  obtain ⟨n, _, _, hnumber⟩ := impliedOperand?_eq_some_iff.mp h
  cases o with
  | constant c => exact .inl ⟨c, rfl⟩
  | slot s => exact .inr ⟨s, rfl⟩
  | _ => cases hnumber

/-! ## Instructions -/

namespace Instruction

/-- Two instructions with the same labels, markers and operand, be it written or implied, and with
related opcodes. -/
structure Alike (R : Opcode → Opcode → Prop) (i j : Instruction) : Prop where
  opcode : R i.opcode j.opcode
  operand : i.logicalOperand? = j.logicalOperand?
  labels : i.labels = j.labels
  markers : i.markers = j.markers

theorem alike_self {R : Opcode → Opcode → Prop} (h : ∀ op, R op op) (i : Instruction) :
    i.Alike R i := ⟨h i.opcode, rfl, rfl, rfl⟩

/-- An operand that is no number is there when it is written. -/
theorem logicalOperand?_eq_some_iff {i : Instruction} {o : Operand} (hc : ∀ c, o ≠ .constant c)
    (hs : ∀ s, o ≠ .slot s) : i.logicalOperand? = some o ↔ i.operand = some o := by
  unfold logicalOperand?
  cases i.operand with
  | some o' => simp
  | none =>
    simp only [Option.none_or, reduceCtorEq, iff_false]
    intro h
    rcases Opcode.impliedOperand?_eq_some h with ⟨c, h⟩ | ⟨s, h⟩
    · exact hc c h
    · exact hs s h

variable {R : Opcode → Opcode → Prop} {i j : Instruction}

theorem Alike.written_iff (h : i.Alike R j) {o : Operand} (hc : ∀ c, o ≠ .constant c)
    (hs : ∀ s, o ≠ .slot s) : i.operand = some o ↔ j.operand = some o := by
  rw [← logicalOperand?_eq_some_iff hc hs, h.operand, logicalOperand?_eq_some_iff hc hs]

theorem Alike.branchTarget? (h : i.Alike R j) : i.branchTarget? = j.branchTarget? := by
  ext l
  rw [branchTarget?_eq_some_iff, branchTarget?_eq_some_iff]
  exact h.written_iff (by simp) (by simp)

theorem stackDelta?_of_method {m : MethodRef} (h : i.operand = some (.method m)) :
    i.stackDelta? = i.opcode.info.delta.or (some (callDelta i.opcode m)) := by
  unfold Instruction.stackDelta?
  rw [h]
  cases i.opcode.info.delta <;> rfl

theorem stackDelta?_of_not_method (h : ∀ m, i.operand ≠ some (.method m)) :
    i.stackDelta? = i.opcode.info.delta := by
  unfold Instruction.stackDelta?
  split <;> simp_all

theorem Alike.stackDelta? (h : i.Alike Eq j) : i.stackDelta? = j.stackDelta? := by
  have hwritten : ∀ m, i.operand = some (.method m) ↔ j.operand = some (.method m) :=
    fun m => h.written_iff (by simp) (by simp)
  by_cases hm : ∃ m, i.operand = some (.method m)
  · obtain ⟨m, hi⟩ := hm
    rw [stackDelta?_of_method hi, stackDelta?_of_method ((hwritten m).mp hi), h.opcode]
  · have hi : ∀ m, i.operand ≠ some (.method m) := fun m hi => hm ⟨m, hi⟩
    have hj : ∀ m, j.operand ≠ some (.method m) := fun m hj => hi m ((hwritten m).mpr hj)
    rw [stackDelta?_of_not_method hi, stackDelta?_of_not_method hj, h.opcode]

end Instruction

/-! ## Bodies -/

namespace Body

/-- Two bodies whose instructions agree one by one. -/
def Alike (R : Opcode → Opcode → Prop) : Body → Body → Prop := List.Forall₂ (Instruction.Alike R)

variable {R : Opcode → Opcode → Prop} {b d : Body}

theorem alike_self (h : ∀ op, R op op) (b : Body) : b.Alike R b :=
  List.forall₂_same.mpr fun i _ => i.alike_self h

namespace Alike

theorem length (h : b.Alike R d) : b.length = d.length := List.Forall₂.length_eq h

theorem drop (h : b.Alike R d) (n : Nat) : Alike R (b.drop n) (d.drop n) := List.forall₂_drop n h

theorem take (h : b.Alike R d) (n : Nat) : Alike R (b.take n) (d.take n) := List.forall₂_take n h

theorem splice (h : b.Alike R d) (hR : ∀ op, R op op) (start count : Nat) (items : Body) :
    (b.splice start count items).Alike R (d.splice start count items) := by
  unfold Body.splice
  exact List.rel_append (List.rel_append (h.take start) (alike_self hR items))
    (h.drop (start + count))

/-- What is the same of instructions that agree is the same at each index. -/
theorem map_eq (h : b.Alike R d) {α : Type} {f : Instruction → α}
    (hf : ∀ i j, i.Alike R j → f i = f j) : b.map f = d.map f := by
  induction h with
  | nil => rfl
  | cons hi _ ih => rw [List.map_cons, List.map_cons, hf _ _ hi, ih]

theorem getElem?_map (h : b.Alike R d) {α : Type} {f : Instruction → α}
    (hf : ∀ i j, i.Alike R j → f i = f j) (k : Nat) : b[k]?.map f = d[k]?.map f := by
  rw [← List.getElem?_map, ← List.getElem?_map, h.map_eq hf]

theorem itemAt?_map (h : b.Alike R d) {α : Type} {f : Instruction → α}
    (hf : ∀ i j, i.Alike R j → f i = f j) (k : Int) :
    (itemAt? b k).map f = (itemAt? d k).map f := by
  unfold itemAt?
  rw [h.length]
  split
  · exact h.getElem?_map hf _
  · split
    · exact h.getElem?_map hf _
    · rfl

theorem indicesWhere (h : b.Alike R d) {p : Instruction → Bool}
    (hp : ∀ i j, i.Alike R j → p i = p j) : b.indicesWhere p = d.indicesWhere p := by
  unfold Body.indicesWhere
  rw [h.length]
  apply List.filter_congr
  intro k _
  have hk := congrArg (·.any id) (h.getElem?_map hp k)
  simpa [Option.any_map] using hk

/-! ## Hazards -/

theorem markersIn (h : b.Alike R d) (start stop : Int) :
    b.markersIn start stop = d.markersIn start stop := by
  unfold Body.markersIn
  rw [h.indicesWhere fun i j hi => by rw [hi.markers]]

theorem outerSource? (h : b.Alike R d) (start stop : Int) (l : Label) :
    b.outerSource? start stop l = d.outerSource? start stop l := by
  unfold Body.outerSource? Body.sources
  rw [h.indicesWhere fun i j hi => by rw [hi.branchTarget?]]

theorem targetFault? (h : b.Alike R d) (start stop index : Int) :
    b.targetFault? start stop index = d.targetFault? start stop index := by
  have hlabels := h.itemAt?_map (fun i j hi => hi.labels) index
  unfold Body.targetFault?
  simp only [h.outerSource?]
  cases hb : itemAt? b index with
  | none =>
    rw [hb] at hlabels
    rw [Option.map_eq_none_iff.mp hlabels.symm]
  | some i =>
    rw [hb] at hlabels
    obtain ⟨j, hj, hi⟩ := Option.map_eq_some_iff.mp hlabels.symm
    simp only [hj, hi]

/-- A removal is refused for one and the same reason. -/
theorem removalFault? (h : b.Alike R d) (start count : Int) :
    b.removalFault? start count = d.removalFault? start count := by
  have hmarkers : ∀ k : Nat, b[k]?.map (·.markers) = d[k]?.map (·.markers) :=
    h.getElem?_map fun i j hi => hi.markers
  have htargets : b.targetFault? start (start + count) = d.targetFault? start (start + count) :=
    funext (h.targetFault? start (start + count))
  unfold Body.removalFault? Body.spanIndices
  rw [h.markersIn, h.length, htargets]
  simp only [hmarkers]

/-! ## The stack -/

theorem stackDelta? (h : b.Alike Eq d) : b.stackDelta? = d.stackDelta? := by
  induction h with
  | nil => rfl
  | cons hi _ ih => rw [Body.stackDelta?, Body.stackDelta?, hi.stackDelta?, ih]

end Alike

end Body

end Peephole
