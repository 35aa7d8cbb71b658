-- Instructions that are written and read again. What is written names no member, so it does not
-- matter by which members it is read.
import Peephole.Body.Document
import Peephole.Proofs.Data.Results
import Peephole.Proofs.Instruction.Operands
import Peephole.Proofs.Opcode.Names

namespace Peephole

variable (table : Option MemberTable)

/-! ## Fields -/

namespace Json

variable {fields : List (String × Json)} {name : String}

theorem item_eq {x : Json} (h : field? fields name = some x) : (obj fields).item name = .ok x := by
  unfold item
  simp only [h]

theorem item?_eq {y : Option Json} (h : field? fields name = y) :
    (obj fields).item? name = .ok y := congrArg _ h

/-- A field that is written says something. -/
theorem present?_eq {y : Option Json} (h : field? fields name = y) (hnull : ∀ z ∈ y, z ≠ .null) :
    (obj fields).present? name = .ok y := by
  unfold present?
  rw [item?_eq h]
  simp only [bind, Except.bind]
  split
  · exact absurd rfl (hnull .null rfl)
  · rfl

theorem field?_append (fs gs : List (String × Json)) (name : String) :
    field? (fs ++ gs) name = (field? fs name).or (field? gs name) := List.lookup_append

theorem map_text_map_str (xs : List String) : (xs.map str).map text = xs := by
  simp [Function.comp_def, text]

end Json

/-! ## Operands -/

theorem FieldRef.ofJson_toFields (f : FieldRef) (kind : Json) :
    FieldRef.ofJson (.obj (("kind", kind) :: f.toFields)) = .ok f := rfl

theorem MethodRef.ofJson_toFields (m : MethodRef) (kind : Json) :
    MethodRef.ofJson (.obj (("kind", kind) :: m.toFields)) = .ok m := by
  change Except.ok (MethodRef.mk _ _ ((m.parameterTypes.map Json.str).map Json.text) _ _) = _
  rw [Json.map_text_map_str]
  rfl

namespace Operand

theorem ofTagged_toJson (o : Operand) : ofTagged o.toJson = .ok o := by
  cases o with
  | constant c =>
    change ((Constant.ofInt c.value).map constant).mapError Fault.operand = _
    simp only [Constant.ofInt, Constant.ofInt?_value]
    rfl
  | string s => rfl
  | field f =>
    change (FieldRef.ofJson (.obj (("kind", .str "field") :: f.toFields))).map field = _
    rw [FieldRef.ofJson_toFields]
    rfl
  | method m =>
    change (MethodRef.ofJson (.obj (("kind", .str "method") :: m.toFields))).map method = _
    rw [MethodRef.ofJson_toFields]
    rfl
  | slot s =>
    change ((Slot.ofInt s.index).map slot).mapError Fault.operand = _
    simp only [Slot.ofInt, Slot.ofInt?_index]
    rfl
  | label l =>
    change ((Label.ofInt l.id).mapError Fault.operand).map label = _
    simp only [Label.ofInt, Label.ofInt?_id]
    rfl

/-- An operand is read as it was written. -/
@[simp] theorem ofJson_toJson (shape : Option OperandShape) (o : Operand) :
    ofJson table shape o.toJson = .ok o := by
  rw [← ofTagged_toJson o]
  cases o <;> rfl

theorem toJson_ne_null (o : Operand) : o.toJson ≠ .null := by
  cases o <;> simp [toJson]

/-- The operand field is read as it was written, also when there is none. -/
theorem beside_eq {op : Opcode} {operand : Option Operand} {fields : List (String × Json)}
    (h : Json.field? fields "operand" = operand.map toJson) :
    beside table op (.obj fields) = .ok operand := by
  have hnull : ∀ z ∈ operand.map toJson, z ≠ .null := by
    intro z hz
    obtain ⟨o, _, rfl⟩ := Option.map_eq_some_iff.mp hz
    exact toJson_ne_null o
  unfold beside
  rw [Json.present?_eq h hnull]
  cases operand with
  | none => rfl
  | some o => exact congrArg (Except.map some) (ofJson_toJson table (some op.shape) o)

end Operand

/-! ## Markers and labels -/

@[simp] theorem Marker.ofJson_toJson (m : Marker) : Marker.ofJson m.toJson = .ok m := by
  change (MarkerKind.ofJson (.str m.kind.word) >>= fun kind => .ok (Marker.mk kind m.catchType)) = _
  rw [MarkerKind.ofJson_word]
  rfl

@[simp] theorem Label.ofNumber_id (l : Label) : Label.ofNumber (.int l.id) = .ok l := by
  change (Label.ofInt l.id).mapError Fault.operand = _
  simp only [Label.ofInt, Label.ofInt?_id]
  rfl

namespace Instruction

/-! ## Instructions -/

@[simp] theorem make_self (i : Instruction) : make i.opcode i.operand i.labels i.markers = .ok i :=
  make_of_check i.accepted

/-- The fields of the JSON object that an instruction is written as. -/
def toFields (i : Instruction) : List (String × Json) :=
  ("op", .str i.mnemonic) :: (i.operand.toList.map fun o => ("operand", o.toJson)) ++
    (listField "labels" (i.labels.map fun l => .int l.id) ++
      listField "blocks" (i.markers.map Marker.toJson))

theorem toJson_eq (i : Instruction) : i.toJson = .obj i.toFields := by
  unfold toJson toFields
  rw [List.append_assoc]

theorem field?_listField (name other : String) (items : List Json) :
    Json.field? (listField name items) other =
      if other = name ∧ items ≠ [] then some (.arr items) else none := by
  unfold listField Json.field?
  cases items with
  | nil => simp
  | cons x xs =>
    by_cases h : other = name
    · simp [h]
    · simp [h, List.lookup_cons, beq_eq_false_iff_ne.mpr h]

theorem partsOf?_listField (name : String) (items : List Json) :
    Json.partsOf? (Json.field? (listField name items) name) = .ok items := by
  rw [field?_listField]
  cases items <;> simp [Json.partsOf?, Json.parts]

theorem field?_operand (i : Instruction) :
    Json.field? i.toFields "operand" = i.operand.map Operand.toJson := by
  unfold toFields
  rw [Json.field?_append, Json.field?_append, field?_listField, field?_listField]
  cases i.operand <;> simp [Json.field?, List.lookup_cons]

theorem partsOf?_labels (i : Instruction) :
    Json.partsOf? (Json.field? i.toFields "labels") = .ok (i.labels.map fun l => .int l.id) := by
  rw [← partsOf?_listField "labels"]
  unfold toFields
  rw [Json.field?_append, Json.field?_append, field?_listField "blocks"]
  cases i.operand <;> simp [Json.field?, List.lookup_cons]

theorem partsOf?_blocks (i : Instruction) :
    Json.partsOf? (Json.field? i.toFields "blocks") = .ok (i.markers.map Marker.toJson) := by
  rw [← partsOf?_listField "blocks"]
  unfold toFields
  rw [Json.field?_append, Json.field?_append, field?_listField "labels"]
  cases i.operand <;> simp [Json.field?, List.lookup_cons]

/-- An instruction is read as it was written. -/
@[simp] theorem ofJson_toJson (i : Instruction) : ofJson table i.toJson = .ok i := by
  have hop : opcodeOf (.obj i.toFields) = .ok i.opcode := by
    change (Opcode.ofJson (.str i.opcode.mnemonic)).mapError Fault.noOpcode = _
    rw [Opcode.ofJson_mnemonic]
    rfl
  have hoperand : Operand.beside table i.opcode (.obj i.toFields) = .ok i.operand :=
    Operand.beside_eq table (field?_operand i)
  have hlabels : (i.labels.map fun l => Json.int l.id).mapM Label.ofNumber = .ok i.labels :=
    mapM_map_eq_ok fun l _ => Label.ofNumber_id l
  have hblocks : (i.markers.map Marker.toJson).mapM Marker.ofJson = .ok i.markers :=
    mapM_map_eq_ok fun m _ => Marker.ofJson_toJson m
  rw [toJson_eq]
  unfold ofJson
  simp only [hop, hoperand, Json.item?, partsOf?_labels, partsOf?_blocks, hlabels, hblocks,
    make_self, bind, Except.bind]
  rfl

end Instruction

/-! ## Bodies -/

namespace Body

theorem ofParts_map_toJson (b : Body) : ofParts table (b.map Instruction.toJson) = .ok b :=
  mapM_map_eq_ok fun i _ => Instruction.ofJson_toJson table i

/-- A body is read as it was written. -/
@[simp] theorem ofJson_toJson (b : Body) : ofJson table b.toJson = .ok b := ofParts_map_toJson table b

end Body

end Peephole
