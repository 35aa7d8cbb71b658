-- Patterns that are written and read again. Every pattern that was read can be written, since a
-- document holds no test that is not a predicate.
import Peephole.Proofs.Instruction.Written

namespace Peephole

variable (table : Option MemberTable)

/-! ## Predicates -/

namespace Predicate

mutual

/-- A predicate is read as it was written. -/
theorem ofJson_toJson : ∀ p : Predicate, ofJson table p.toJson = .ok p
  | anyInteger => rfl
  | integer _ => rfl
  | slot _ => rfl
  | equals o => by
    change Operand.ofJson table none o.toJson >>= (fun o => .ok (equals o)) = _
    rw [Operand.ofJson_toJson]
    rfl
  | all ps => by
    change ofItems table (toItems ps) >>= (fun ps => .ok (all ps)) = _
    rw [ofItems_toItems ps]
    rfl
  | either ps => by
    change ofItems table (toItems ps) >>= (fun ps => .ok (either ps)) = _
    rw [ofItems_toItems ps]
    rfl

theorem ofItems_toItems : ∀ ps : List Predicate, ofItems table (toItems ps) = .ok ps
  | [] => rfl
  | p :: ps => by
    unfold toItems ofItems
    rw [ofJson_toJson p, ofItems_toItems ps]
    rfl

end

theorem toJson_ne_null (p : Predicate) : p.toJson ≠ .null := by
  cases p <;> simp [toJson]

end Predicate

/-! ## Rules -/

@[simp] theorem ClassSet.ofList?_members (cs : ClassSet) : ofList? cs.members = some cs := by
  have hsame := cs.canonical.symm
  unfold ofList?
  simp only [hsame, cs.nonempty, dite_false]

namespace Rule

theorem ofClasses_members (cs : ClassSet) (condition : Option Condition) :
    ofClasses cs.members condition = .ok (.anyOf cs condition) := by
  unfold ofClasses
  rw [ClassSet.ofList?_members]

/-- What can be written of a condition is a predicate or nothing. -/
theorem conditionField_eq_ok {condition : Option Condition} {extra : List (String × Json)}
    (h : conditionField condition = .ok extra) :
    ∃ p : Option Predicate, condition = p.map .predicate ∧
      extra = p.toList.map fun q => ("where", q.toJson) := by
  rcases condition with _ | p | test
  · cases h
    exact ⟨none, rfl, rfl⟩
  · cases h
    exact ⟨some p, rfl, rfl⟩
  · cases h

/-- The fields that a rule for an opcode is written with. -/
def exactFields (op : Opcode) (operand : Option Operand) : List (String × Json) :=
  [("rule", .str "exact"), ("op", .str op.mnemonic)] ++
    operand.toList.map fun o => ("operand", o.toJson)

/-- The fields that a rule for classes is written with. -/
def anyFields (cs : ClassSet) (p : Option Predicate) : List (String × Json) :=
  [("rule", .str "any"), ("classes", .arr (cs.members.map fun c => .str c.name))] ++
    p.toList.map fun q => ("where", q.toJson)

theorem exactOfJson_fields (op : Opcode) (operand : Option Operand) :
    exactOfJson table (.obj (exactFields op operand)) = .ok (.exact op operand) := by
  have hop : Json.field? (exactFields op operand) "op" = some (.str op.mnemonic) := by
    simp [exactFields, Json.field?, List.lookup_cons]
  have hoperand : Json.field? (exactFields op operand) "operand" =
      operand.map Operand.toJson := by
    cases operand <;> simp [exactFields, Json.field?, List.lookup_cons]
  unfold exactOfJson
  rw [Json.item_eq hop]
  simp only [bind, Except.bind, Opcode.ofJson_mnemonic, Except.mapError,
    Operand.beside_eq table hoperand]
  rfl

theorem anyOfJson_fields (cs : ClassSet) (p : Option Predicate) :
    anyOfJson table (.obj (anyFields cs p)) = .ok (.anyOf cs (p.map .predicate)) := by
  have hclasses : Json.field? (anyFields cs p) "classes" =
      some (.arr (cs.members.map fun c => .str c.name)) := by
    simp [anyFields, Json.field?, List.lookup_cons]
  have hwhere : Json.field? (anyFields cs p) "where" = p.map Predicate.toJson := by
    cases p <;> simp [anyFields, Json.field?, List.lookup_cons]
  have hnull : ∀ z ∈ p.map Predicate.toJson, z ≠ .null := by
    intro z hz
    obtain ⟨q, _, rfl⟩ := Option.map_eq_some_iff.mp hz
    exact q.toJson_ne_null
  have hread : (cs.members.map fun c => Json.str c.name).mapM EncodingClass.ofJson =
      .ok cs.members := mapM_map_eq_ok fun c _ => EncodingClass.ofJson_name c
  unfold anyOfJson
  rw [Json.item_eq hclasses, Json.present?_eq hwhere hnull]
  simp only [bind, Except.bind, Json.parts, hread]
  cases p with
  | none => exact ofClasses_members cs none
  | some q =>
    simp only [Option.map_some, Predicate.ofJson_toJson, Except.map]
    exact ofClasses_members cs (some (.predicate q))

/-- A rule is read as it was written. -/
theorem ofJson_toJson {r : Rule} {y : Json} (h : r.toJson = .ok y) : ofJson table y = .ok r := by
  cases r with
  | exact op operand =>
    cases h
    have hrule : Json.field? (exactFields op operand) "rule" = some (.str "exact") := by
      simp [exactFields, Json.field?]
    change ofJson table (.obj (exactFields op operand)) = _
    unfold ofJson
    rw [Json.item?_eq hrule]
    simp [bind, Except.bind, exactOfJson_fields]
  | anyOf classes condition =>
    obtain ⟨extra, hextra, rfl⟩ := ok_of_map h
    obtain ⟨p, rfl, rfl⟩ := conditionField_eq_ok hextra
    have hrule : Json.field? (anyFields classes p) "rule" = some (.str "any") := by
      simp [anyFields, Json.field?]
    change ofJson table (.obj (anyFields classes p)) = _
    unfold ofJson
    rw [Json.item?_eq hrule]
    simp [bind, Except.bind, anyOfJson_fields]

theorem toJson_of_ofClasses {cs : List EncodingClass} {p : Option Predicate} {r : Rule}
    (h : ofClasses cs (p.map .predicate) = .ok r) : ∃ y, r.toJson = .ok y := by
  unfold ofClasses at h
  split at h
  · cases h
    cases p <;> exact ⟨_, rfl⟩
  · cases h

/-- A rule that was read can be written. -/
theorem toJson_of_ofJson {x : Json} {r : Rule} (h : ofJson table x = .ok r) :
    ∃ y, r.toJson = .ok y := by
  unfold ofJson at h
  obtain ⟨kind, _, h⟩ := ok_of_bind h
  split at h
  · obtain ⟨name, _, h⟩ := ok_of_bind h
    obtain ⟨op, _, h⟩ := ok_of_bind h
    obtain ⟨operand, _, h⟩ := ok_of_bind h
    cases h
    exact ⟨_, rfl⟩
  · obtain ⟨field, _, h⟩ := ok_of_bind h
    obtain ⟨items, _, h⟩ := ok_of_bind h
    obtain ⟨classes, _, h⟩ := ok_of_bind h
    obtain ⟨condition, _, h⟩ := ok_of_bind h
    cases condition with
    | none => exact toJson_of_ofClasses (p := none) h
    | some y =>
      obtain ⟨p, _, h⟩ := ok_of_bind (x := (Predicate.ofJson table y).map some) h
      exact toJson_of_ofClasses h
  · obtain ⟨value, _, h⟩ := ok_of_bind h
    split at h
    · obtain ⟨n, _, h⟩ := ok_of_bind h
      cases h
      exact ⟨_, rfl⟩
    · cases h
      exact ⟨_, rfl⟩
  · cases h

end Rule

/-! ## Patterns -/

namespace Pattern

/-- A pattern is read as it was written. -/
theorem ofJson_toJson {p : Pattern} {y : Json} (h : p.toJson = .ok y) : ofJson table y = .ok p := by
  obtain ⟨rules, hrules, h⟩ := ok_of_bind h
  cases h
  have hread : rules.mapM (Rule.ofJson table) = .ok p.rules := by
    rw [mapM_eq_ok_iff] at hrules ⊢
    exact (hrules.imp fun r y hr => Rule.ofJson_toJson table hr).flip
  have hself : ofRules? p.name p.rules = some p := dif_neg p.nonempty
  change ofParts table (.ok p.name) rules = _
  unfold ofParts
  simp only [hread, hself, bind, Except.bind]

theorem toJson_of_ofParts {name : Except Fault String} {xs : List Json} {p : Pattern}
    (h : ofParts table name xs = .ok p) : ∃ y, p.toJson = .ok y := by
  obtain ⟨rules, hrules, h⟩ := ok_of_bind h
  obtain ⟨text, _, h⟩ := ok_of_bind h
  have hall : ∀ r ∈ rules, ∃ y, r.toJson = .ok y := by
    intro r hr
    obtain ⟨x, _, hx⟩ := exists_of_mem_mapM hrules r hr
    exact Rule.toJson_of_ofJson table hx
  obtain ⟨ys, hys⟩ := mapM_isOk hall
  have hp : p.rules = rules := by
    unfold ofRules? at h
    split at h
    · rename_i q hq
      split at hq
      · cases hq
      · cases hq
        cases h
        rfl
    · cases h
  unfold toJson
  rw [hp, hys]
  exact ⟨_, rfl⟩

/-- A pattern that was read can be written. -/
theorem toJson_of_ofJson {x : Json} {p : Pattern} (h : ofJson table x = .ok p) :
    ∃ y, p.toJson = .ok y := by
  obtain ⟨field, _, h⟩ := ok_of_bind h
  obtain ⟨items, _, h⟩ := ok_of_bind h
  exact toJson_of_ofParts table h

end Pattern

end Peephole
