-- Members that patches refer to by name. A name stands where an operand does, and says no more
-- than the member spelled out there.
import Peephole.Proofs.Patch.Operands

namespace Peephole

/-! ## References -/

namespace Operand

/-- The name that stands for a member, if a value is such a name. -/
def reference? (x : Json) : Option Json := x.under? "member"

/-- The member in place of its name. A name that nothing is declared by stays. -/
def expand (t : MemberTable) (x : Json) : Json :=
  match (reference? x).bind fun r => t.find? r.text with
  | some m => m.toOperand.toJson
  | none => x

variable {t t' : MemberTable} {x : Json} {shape : Option OperandShape}

theorem ofJson_reference {table : Option MemberTable} {r : Json} (h : reference? x = some r) :
    ofJson table shape x = ofReference table r := by
  cases x with
  | obj fields =>
    have hmember : Json.field? fields "member" = some r := h
    simp only [ofJson, hmember]
  | _ => cases h

/-- What names no member is read without regard to the members. -/
theorem ofJson_of_no_reference {table table' : Option MemberTable} (h : reference? x = none) :
    ofJson table shape x = ofJson table' shape x := by
  cases x with
  | obj fields =>
    have hmember : Json.field? fields "member" = none := h
    simp only [ofJson, hmember]
  | _ => rfl

theorem ofReference_of_find? {r : Json} {m : Member} (h : t.find? r.text = some m) :
    ofReference (some t) r = .ok m.toOperand := by
  unfold ofReference
  simp only [MemberTable.resolve, h]
  rfl

theorem expand_eq_null : expand t x = .null ↔ x = .null := by
  unfold expand
  split
  · rename_i m h
    constructor
    · intro hm
      exact absurd hm (toJson_ne_null _)
    · rintro rfl
      cases h
  · rfl

/-- A name reads like the member that is declared by it. -/
theorem ofJson_expand (h : ∀ r, reference? x = some r → r.text ∈ t.keys) :
    ofJson (some t) shape x = ofJson none shape (expand t x) := by
  cases hx : reference? x with
  | none =>
    have hself : expand t x = x := by simp [expand, hx]
    rw [hself]
    exact ofJson_of_no_reference hx
  | some r =>
    obtain ⟨m, hm⟩ := Option.isSome_iff_exists.mp ((t.find?_isSome_iff r.text).mpr (h r hx))
    have hexpand : expand t x = m.toOperand.toJson := by simp [expand, hx, hm]
    rw [hexpand, ofJson_toJson, ofJson_reference hx, ofReference_of_find? hm]

/-- What can be read by some members can be read without them once the names are gone. -/
theorem ofJson_expand_of_ok {o : Operand} (h : ofJson (some t) shape x = .ok o) :
    ofJson none shape (expand t x) = .ok o := by
  rw [← ofJson_expand, h]
  intro r hr
  rw [ofJson_reference hr] at h
  obtain ⟨m, hm, -⟩ := ok_of_map h
  unfold MemberTable.resolve at hm
  split at hm
  · rename_i found
    rw [← OrderedMap.find?_isSome_iff, found]
    rfl
  · cases hm

/-- What can be read without the names can be read with them by any members that the names still
have. -/
theorem ofJson_of_expand {o : Operand} (ht : ∀ k m, t.find? k = some m → t'.find? k = some m)
    (h : ofJson none shape (expand t x) = .ok o) : ofJson (some t') shape x = .ok o := by
  cases hx : reference? x with
  | none =>
    have hself : expand t x = x := by simp [expand, hx]
    rw [← h, hself]
    exact ofJson_of_no_reference hx
  | some r =>
    cases hm : t.find? r.text with
    | none =>
      have hself : expand t x = x := by simp [expand, hx, hm]
      rw [hself, ofJson_reference hx] at h
      cases h
    | some m =>
      have hexpand : expand t x = m.toOperand.toJson := by simp [expand, hx, hm]
      rw [hexpand, ofJson_toJson] at h
      rw [ofJson_reference hx, ofReference_of_find? (ht _ _ hm), h]

end Operand

namespace Patch

/-! ## The law -/

/-- A patch whose names of members are all declared reads, faults included, like the patch that
spells the members out. What can be read by some members is read alike by all that have them. -/
theorem a_name_stands_for_its_member (t : MemberTable) (x : Json) :
    ((∀ y ∈ operandsIn x, ∀ r, Operand.reference? y = some r → r.text ∈ t.keys) →
      ofJson (some t) x = ofJson none (mapOperands (Operand.expand t) x)) ∧
    ∀ p, ofJson (some t) x = .ok p →
      ∀ t' : MemberTable, (∀ k m, t.find? k = some m → t'.find? k = some m) →
        ofJson (some t') x = .ok p := by
  refine ⟨?_, ?_⟩
  · intro h
    exact ofJson_mapOperands (C := .same Fault) fun y hy =>
      ⟨fun shape => Operand.ofJson_expand (h y hy), Operand.expand_eq_null⟩
  · intro p hp t' ht
    have hplain : ofJson none (mapOperands (Operand.expand t) x) = .ok p :=
      ofJson_mapOperands (C := .within Fault) (fun y _ =>
        ⟨fun shape o => Operand.ofJson_expand_of_ok, Operand.expand_eq_null⟩) p hp
    exact ofJson_mapOperands (C := (Comparison.within Fault).flip) (fun y _ =>
      ⟨fun shape o => Operand.ofJson_of_expand ht, Operand.expand_eq_null⟩) p hplain

/-- A patch that names members in a rule for an opcode, in a condition within conditions, where the
name is a number, and in what it inserts. -/
theorem a_patch_with_three_names :
    let id : MethodRef := ⟨"S", "Id", ["S"], "S", true⟩
    let hp : FieldRef := ⟨"P", "hp", "int", true⟩
    let t : MemberTable := .ofList [("7", .method id), ("hp", .field hp)]
    let x : Json := .obj [("name", .str "d"), ("target", .str "T::m()"),
      ("pattern", .arr [
        .obj [("op", .str "call"), ("operand", .obj [("member", .str "7")])],
        .obj [("rule", .str "any"), ("classes", .arr [.str "call"]),
          ("where", .obj [("pred", .str "all"), ("of", .arr [.obj [("pred", .str "either"),
            ("of", .arr [.obj [("pred", .str "equals"),
              ("operand", .obj [("member", .int 7)])]])]])])]]),
      ("remove", .int 1),
      ("insert", .arr [.obj [("op", .str "ldsfld"), ("operand", .obj [("member", .str "hp")])]])]
    (∀ y ∈ operandsIn x, ∀ r, Operand.reference? y = some r → r.text ∈ t.keys) ∧
    ∃ p, ofJson (some t) x = .ok p ∧ p.insert.map (·.operand) = [some (.field hp)] ∧
      ofJson none (mapOperands (Operand.expand t) x) = .ok p ∧
      ofJson (some (t.insert "8" (.field hp))) x = .ok p := by
  intro id hp t x
  obtain ⟨hsame, hmore⟩ := a_name_stands_for_its_member t x
  have hdeclared : ∀ y ∈ operandsIn x, ∀ r, Operand.reference? y = some r → r.text ∈ t.keys := by
    have hin : operandsIn x = [.obj [("member", .str "7")], .obj [("member", .int 7)],
        .obj [("member", .str "hp")]] := rfl
    have h7 : "7" ∈ t.keys := List.mem_cons_self
    have hhp : "hp" ∈ t.keys := List.mem_cons_of_mem _ List.mem_cons_self
    rw [hin]
    intro y hy r hr
    simp only [List.mem_cons, List.not_mem_nil, or_false] at hy
    rcases hy with rfl | rfl | rfl <;> cases hr
    · exact h7
    · exact h7
    · exact hhp
  have hextends : ∀ k m, t.find? k = some m → (t.insert "8" (.field hp)).find? k = some m := by
    intro k m hk
    have hk8 : k ≠ "8" := by
      rintro rfl
      cases hk
    rw [OrderedMap.find?_insert, if_neg hk8, hk]
  have hread : (ofJson (some t) x).toOption.any
      (fun p => decide (p.insert.map (·.operand) = [some (.field hp)])) = true := by
    decide +kernel
  refine ⟨hdeclared, ?_⟩
  cases hp' : ofJson (some t) x with
  | error f =>
    rw [hp'] at hread
    cases hread
  | ok p =>
    rw [hp'] at hread
    exact ⟨p, rfl, of_decide_eq_true hread, (hsame hdeclared).symm.trans hp', hmore p hp' _ hextends⟩

end Patch

end Peephole
