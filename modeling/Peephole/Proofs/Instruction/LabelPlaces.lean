-- The places that name labels. A branch names the label it goes to, bare or with its kind, and an
-- instruction lists the labels that stand on it. A bare label has to be a whole number. In the two
-- other places a value that is none is made whole first, so one value may be a label in one place
-- and refused in another.
import Peephole.Proofs.Instruction.BareOperands

namespace Peephole

/-- A place where an instruction names a label. -/
inductive LabelPlace where
  /-- The operand of a branch, without its kind. -/
  | bare
  /-- The operand of a branch, with its kind. -/
  | tagged
  /-- The list of the labels that stand on an instruction. -/
  | listed
  deriving DecidableEq

namespace LabelPlace

/-- An instruction that names a value as a label in a place, the branch being given by its name. -/
def document (branch v : Json) : LabelPlace → Json
  | bare => Instruction.written branch v
  | tagged => Instruction.written branch (.obj [("kind", .str "label"), ("id", v)])
  | listed => .obj [("op", .str "nop"), ("labels", .arr [v])]

/-- The label that an instruction names in a place. -/
def label? (i : Instruction) : LabelPlace → Option Label
  | bare => i.branchTarget?
  | tagged => i.branchTarget?
  | listed => i.labels.head?

/-- The label that a value is read as in a place. -/
def read (table : Option MemberTable) (branch v : Json) (place : LabelPlace) :
    Except Fault (Option Label) :=
  (Instruction.ofJson table (place.document branch v)).map fun i => place.label? i

end LabelPlace

variable {table : Option MemberTable} {op : Opcode} {name v : Json} {l : Label}

/-! ## Labels of values -/

theorem Label.ofNumber_eq_ok_iff : ofNumber v = .ok l ↔ v.integer = .ok (l.id : Int) := by
  constructor
  · intro h
    obtain ⟨n, hn, h⟩ := ok_of_bind h
    rw [hn]
    have h := ok_of_mapError h
    unfold ofInt at h
    split at h
    · rename_i hid
      cases h
      rw [Label.id_of_ofInt? hid]
    · cases h
  · intro h
    unfold ofNumber
    rw [h]
    exact Label.ofNumber_id l

/-- What a label itself accepts is its id as a whole number. -/
theorem Label.ofJson_eq_ok_iff : ofJson v = .ok l ↔ v = .int l.id := by
  constructor
  · intro h
    cases v with
    | int n =>
      change ofInt n = .ok l at h
      unfold ofInt at h
      split at h
      · rename_i hid
        cases h
        rw [Label.id_of_ofInt? hid]
      · cases h
    | _ => cases h
  · rintro rfl
    change ofInt l.id = .ok l
    unfold ofInt
    rw [Label.ofInt?_id]

theorem Operand.ofBare_label_iff {o : Operand} :
    ofBare (some .label) v = .ok o ↔ ∃ l, o = .label l ∧ v = .int l.id := by
  rw [ofBare_eq_ok_iff]
  constructor
  · rintro (⟨n, rfl, hn⟩ | ⟨_, -, hshape, -⟩)
    · obtain ⟨l, hl, rfl⟩ := Option.map_eq_some_iff.mp hn
      exact ⟨l, rfl, congrArg Json.int (Label.id_of_ofInt? hl).symm⟩
    · cases hshape
  · rintro ⟨l, rfl, rfl⟩
    exact .inl ⟨l.id, rfl, congrArg (Option.map label) (Label.ofInt?_id l)⟩

theorem Operand.ofJson_tagged_label_iff {shape : Option OperandShape} {o : Operand} :
    ofJson table shape (.obj [("kind", .str "label"), ("id", v)]) = .ok o ↔
      ∃ l, o = .label l ∧ v.integer = .ok (l.id : Int) := by
  change (Label.ofNumber v).map label = .ok o ↔ _
  simp only [← Label.ofNumber_eq_ok_iff]
  cases Label.ofNumber v <;> simp [Except.map, eq_comm]

namespace Instruction

/-! ## Labels of instructions -/

theorem branch_eq_ok_iff (hop : Opcode.ofJson name = .ok op) (hshape : op.shape = .label)
    (hnull : v ≠ .null) :
    (ofJson table (written name v)).map branchTarget? = .ok (some l) ↔
      Operand.ofJson table (some .label) v = .ok (.label l) := by
  rw [← hshape]
  constructor
  · intro h
    obtain ⟨i, hi, htarget⟩ := ok_of_map h
    obtain ⟨o, ho, hmake⟩ := (ofJson_written_eq_ok_iff hop hnull).mp hi
    obtain ⟨_, rfl⟩ := make_eq_ok hmake
    cases o with
    | label l' =>
      cases htarget
      exact ho
    | _ => cases htarget
  · intro ho
    have hcheck : op.check (some (.label l)) = .ok () := by
      rw [Opcode.check_some_eq_ok_iff, hshape]
      exact ⟨rfl, rfl⟩
    rw [(ofJson_written_eq_ok_iff hop hnull).mpr ⟨_, ho, make_of_check hcheck⟩]
    rfl

/-- An object is read as an instruction when each part of the instruction is read from its field. -/
theorem ofJson_obj_eq_ok_iff {fields : List (String × Json)} {i : Instruction} :
    ofJson table (.obj fields) = .ok i ↔
      opcodeOf (.obj fields) = .ok i.opcode ∧
      Operand.beside table i.opcode (.obj fields) = .ok i.operand ∧
      (∃ vs, Json.partsOf? (Json.field? fields "labels") = .ok vs ∧
        vs.mapM Label.ofNumber = .ok i.labels) ∧
      ∃ ms, Json.partsOf? (Json.field? fields "blocks") = .ok ms ∧
        ms.mapM Marker.ofJson = .ok i.markers := by
  unfold ofJson
  constructor
  · intro h
    obtain ⟨op, hop, h⟩ := ok_of_bind h
    obtain ⟨operand, hoperand, h⟩ := ok_of_bind h
    obtain ⟨_, hfield, h⟩ := ok_of_bind h
    cases hfield
    obtain ⟨vs, hvs, h⟩ := ok_of_bind h
    obtain ⟨labels, hlabels, h⟩ := ok_of_bind h
    obtain ⟨_, hfield, h⟩ := ok_of_bind h
    cases hfield
    obtain ⟨ms, hms, h⟩ := ok_of_bind h
    obtain ⟨markers, hmarkers, h⟩ := ok_of_bind h
    obtain ⟨_, rfl⟩ := make_eq_ok (ok_of_mapError h)
    exact ⟨hop, hoperand, ⟨vs, hvs, hlabels⟩, ms, hms, hmarkers⟩
  · rintro ⟨hop, hoperand, ⟨vs, hvs, hlabels⟩, ms, hms, hmarkers⟩
    simp only [hop, hoperand, Json.item?, hvs, hlabels, hms, hmarkers, make_self, bind,
      Except.bind]
    rfl

theorem field?_append_labels {fields : List (String × Json)} {x : Json} {key : String}
    (h : key ≠ "labels") :
    Json.field? (fields ++ [("labels", x)]) key = Json.field? fields key := by
  rw [Json.field?_append]
  simp [Json.field?, List.lookup_cons, beq_eq_false_iff_ne.mpr h]

/-- The listed labels are put on the instruction, each as it is read. -/
theorem ofJson_append_labels {fields : List (String × Json)} {vs : List Json}
    (h : Json.field? fields "labels" = none) {j : Instruction} :
    ofJson table (.obj (fields ++ [("labels", .arr vs)])) = .ok j ↔
      ∃ i ls, ofJson table (.obj fields) = .ok i ∧ vs.mapM Label.ofNumber = .ok ls ∧
        j = i.withLabels ls := by
  have hop : opcodeOf (.obj (fields ++ [("labels", .arr vs)])) = opcodeOf (.obj fields) := by
    unfold opcodeOf Json.item
    simp only [field?_append_labels (show "op" ≠ "labels" by decide)]
  have hoperand : ∀ op, Operand.beside table op (.obj (fields ++ [("labels", .arr vs)])) =
      Operand.beside table op (.obj fields) := by
    intro op
    unfold Operand.beside Json.present? Json.item?
    simp only [field?_append_labels (show "operand" ≠ "labels" by decide)]
  have hlabels : Json.field? (fields ++ [("labels", .arr vs)]) "labels" = some (.arr vs) := by
    rw [Json.field?_append, h]
    rfl
  simp only [ofJson_obj_eq_ok_iff, hop, hoperand, hlabels, h,
    field?_append_labels (show "blocks" ≠ "labels" by decide)]
  constructor
  · rintro ⟨hopcode, hoperand, ⟨_, hvs, hlabels⟩, hblocks⟩
    cases hvs
    exact ⟨j.withLabels [], j.labels, ⟨hopcode, hoperand, ⟨[], rfl, rfl⟩, hblocks⟩, hlabels, rfl⟩
  · rintro ⟨i, ls, ⟨hopcode, hoperand, -, hblocks⟩, hls, rfl⟩
    exact ⟨hopcode, hoperand, ⟨vs, rfl, hls⟩, hblocks⟩

end Instruction

namespace LabelPlace

/-! ## What is read -/

theorem read_bare_iff (hop : Opcode.ofJson name = .ok op) (hshape : op.shape = .label)
    (hnull : v ≠ .null) (hobj : ∀ fields, v ≠ .obj fields) :
    read table name v bare = .ok (some l) ↔ v = .int l.id := by
  refine (Instruction.branch_eq_ok_iff hop hshape hnull).trans ?_
  rw [Operand.ofJson_bare_eq_ok_iff hobj, Operand.ofBare_label_iff]
  simp

theorem read_tagged_iff (hop : Opcode.ofJson name = .ok op) (hshape : op.shape = .label) :
    read table name v tagged = .ok (some l) ↔ v.integer = .ok (l.id : Int) := by
  have hnull : Json.obj [("kind", .str "label"), ("id", v)] ≠ .null := by simp
  refine (Instruction.branch_eq_ok_iff hop hshape hnull).trans ?_
  rw [Operand.ofJson_tagged_label_iff]
  simp

theorem read_listed_iff :
    read table name v listed = .ok (some l) ↔ v.integer = .ok (l.id : Int) := by
  have hnop : Instruction.ofJson table (.obj [("op", .str "nop")]) =
      .ok ⟨.nop, none, [], [], rfl⟩ := Instruction.ofJson_toJson table ⟨.nop, none, [], [], rfl⟩
  have hnone : Json.field? [("op", .str "nop")] "labels" = none := rfl
  have hlisted : ∀ j, Instruction.ofJson table (document name v listed) = .ok j ↔ _ :=
    fun j => Instruction.ofJson_append_labels hnone
  rw [← Label.ofNumber_eq_ok_iff]
  constructor
  · intro h
    obtain ⟨j, hj, hhead⟩ := ok_of_map h
    obtain ⟨i, ls, -, hls, rfl⟩ := (hlisted j).mp hj
    rw [mapM_eq_ok_iff] at hls
    obtain ⟨l', rest, hl', -, rfl⟩ := List.forall₂_cons_left_iff.mp hls
    cases hhead
    exact hl'
  · intro h
    have hls : [v].mapM Label.ofNumber = .ok [l] := by
      rw [mapM_eq_ok_iff]
      exact .cons h .nil
    have hj := (hlisted _).mpr ⟨_, _, hnop, hls, rfl⟩
    exact congrArg (Except.map fun i => listed.label? i) hj

/-- An instruction that is read names a label in each place. -/
theorem read_ne_none (hop : Opcode.ofJson name = .ok op) (hshape : op.shape = .label)
    (place : LabelPlace) : read table name v place ≠ .ok none := by
  have hbranch : ∀ v,
      (Instruction.ofJson table (Instruction.written name v)).map Instruction.branchTarget? ≠
        .ok none := by
    intro v h
    obtain ⟨i, hi, htarget⟩ := ok_of_map h
    have hopcode : (Opcode.ofJson name).mapError Fault.noOpcode = .ok i.opcode :=
      (Instruction.ofJson_obj_eq_ok_iff.mp hi).1
    rw [hop] at hopcode
    cases hopcode
    obtain ⟨l, hl⟩ := Instruction.operand_of_branch hshape
    unfold Instruction.branchTarget? at htarget
    rw [hl] at htarget
    cases htarget
  cases place with
  | bare => exact hbranch v
  | tagged => exact hbranch _
  | listed =>
    intro h
    obtain ⟨j, hj, hhead⟩ := ok_of_map h
    obtain ⟨-, -, ⟨_, hvs, hlabels⟩, -⟩ := Instruction.ofJson_obj_eq_ok_iff.mp hj
    cases hvs
    rw [mapM_eq_ok_iff] at hlabels
    obtain ⟨l, rest, -, -, hl⟩ := List.forall₂_cons_left_iff.mp hlabels
    change j.labels.head? = none at hhead
    rw [hl] at hhead
    cases hhead

/-! ## The laws -/

/-- Let a value that is neither null nor an object be named as a label. Bare, it is what a label
itself accepts, which is an id as a whole number. With its kind and in a list, it is the label of
the whole number which is made of it. So the places agree on it just when it is a whole number, or
when no label can be made of it. The labels that an instruction lists, however many, are each read
so. -/
theorem a_label_is_a_whole_number_where_it_stands_bare_and_made_one_elsewhere
    (table : Option MemberTable) (hop : Opcode.ofJson name = .ok op) (hshape : op.shape = .label)
    (hnull : v ≠ .null) (hobj : ∀ fields, v ≠ .obj fields) :
    (∀ l : Label, read table name v bare = .ok (some l) ↔ Label.ofJson v = .ok l) ∧
    (∀ l : Label, Label.ofJson v = .ok l ↔ v = .int l.id) ∧
    (∀ l : Label, read table name v tagged = .ok (some l) ↔ v.integer = .ok (l.id : Int)) ∧
    (∀ l : Label, read table name v listed = .ok (some l) ↔ v.integer = .ok (l.id : Int)) ∧
    (∀ place, read table name v place ≠ .ok none) ∧
    ((∀ (p q : LabelPlace) (l : Label),
        read table name v p = .ok (some l) ↔ read table name v q = .ok (some l)) ↔
      (∃ n, v = .int n) ∨ ∀ l : Label, v.integer ≠ .ok (l.id : Int)) ∧
    ∀ fields vs j, Json.field? fields "labels" = none →
      (Instruction.ofJson table (.obj (fields ++ [("labels", .arr vs)])) = .ok j ↔
        ∃ i ls, Instruction.ofJson table (.obj fields) = .ok i ∧
          List.Forall₂ (fun x (l : Label) => x.integer = .ok (l.id : Int)) vs ls ∧
          j = i.withLabels ls) := by
  have hbare : ∀ l : Label, read table name v bare = .ok (some l) ↔ v = .int l.id :=
    fun l => read_bare_iff hop hshape hnull hobj
  have htagged : ∀ l : Label, read table name v tagged = .ok (some l) ↔
      v.integer = .ok (l.id : Int) := fun l => read_tagged_iff hop hshape
  have hlisted : ∀ l : Label, read table name v listed = .ok (some l) ↔
      v.integer = .ok (l.id : Int) := fun l => read_listed_iff
  refine ⟨fun l => (hbare l).trans Label.ofJson_eq_ok_iff.symm, fun l => Label.ofJson_eq_ok_iff,
    htagged, hlisted, read_ne_none hop hshape, ?_, ?_⟩
  · constructor
    · intro hagree
      by_cases h : ∃ l : Label, v.integer = .ok (l.id : Int)
      · obtain ⟨l, hl⟩ := h
        exact .inl ⟨l.id, (hbare l).mp ((hagree tagged bare l).mp ((htagged l).mpr hl))⟩
      · exact .inr fun l hl => h ⟨l, hl⟩
    · intro h
      have hwhole : ∀ l : Label, v = .int l.id ↔ v.integer = .ok (l.id : Int) := by
        intro l
        rcases h with ⟨n, rfl⟩ | h
        · simp [Json.integer]
        · refine iff_of_false ?_ (h l)
          rintro rfl
          exact h l rfl
      have hread : ∀ (p : LabelPlace) (l : Label),
          read table name v p = .ok (some l) ↔ v = .int l.id := by
        intro p l
        cases p with
        | bare => exact hbare l
        | tagged => exact (htagged l).trans (hwhole l).symm
        | listed => exact (hlisted l).trans (hwhole l).symm
      intro p q l
      exact (hread p l).trans (hread q l).symm
  · intro fields vs j h
    simp only [Instruction.ofJson_append_labels h, mapM_eq_ok_iff, Label.ofNumber_eq_ok_iff]

/-- A whole number is the same label in each place. -/
theorem the_label_seven_in_each_place :
    read none (.str "leave.s") (.int 7) bare = .ok (some ⟨7⟩) ∧
      read none (.str "leave.s") (.int 7) tagged = .ok (some ⟨7⟩) ∧
      read none (.str "leave.s") (.int 7) listed = .ok (some ⟨7⟩) := by
  have hop : Opcode.ofJson (.str "leave.s") = .ok .leaveS := Opcode.ofJson_mnemonic .leaveS
  obtain ⟨hbare, hlabel, -, -, -, hagree, -⟩ :=
    a_label_is_a_whole_number_where_it_stands_bare_and_made_one_elsewhere none hop rfl
      (v := .int 7) (by simp) (by simp)
  have hseven := (hbare ⟨7⟩).mpr ((hlabel ⟨7⟩).mpr rfl)
  have hplaces := hagree.mpr (.inl ⟨7, rfl⟩)
  exact ⟨hseven, (hplaces bare tagged ⟨7⟩).mp hseven, (hplaces bare listed ⟨7⟩).mp hseven⟩

/-- A truth value, a fraction and a text are no labels where they stand bare, but are made labels
with their kind and in a list. -/
theorem values_that_are_labels_only_where_they_do_not_stand_bare :
    let fraction : Json := .float (.ofDecimal false 25 2 (-1))
    (read none (.str "br") (.bool true) bare = .error (.operand (.labelExpected (.bool true))) ∧
      read none (.str "br") (.bool true) tagged = .ok (some ⟨1⟩) ∧
      read none (.str "br") (.bool true) listed = .ok (some ⟨1⟩)) ∧
    (read none (.str "br") fraction bare =
        .error (.operand (.uninterpretable fraction (some .label))) ∧
      read none (.str "br") fraction tagged = .ok (some ⟨2⟩) ∧
      read none (.str "br") fraction listed = .ok (some ⟨2⟩)) ∧
    read none (.str "br") (.str "1") bare =
        .error (.operand (.uninterpretable (.str "1") (some .label))) ∧
      read none (.str "br") (.str "1") tagged = .ok (some ⟨1⟩) ∧
      read none (.str "br") (.str "1") listed = .ok (some ⟨1⟩) := by
  intro fraction
  have hop : Opcode.ofJson (.str "br") = .ok .br := Opcode.ofJson_mnemonic .br
  have hbare : ∀ v g, v ≠ .null → Operand.ofJson none (some .label) v = .error g →
      read none (.str "br") v bare = .error g := by
    intro v g hnull h
    change (Instruction.ofJson none (Instruction.written (.str "br") v)).map _ = _
    rw [Instruction.ofJson_written hop hnull]
    change (Operand.ofJson none (some .label) v >>= _).map _ = _
    rw [h]
    rfl
  have hmade : ∀ v (l : Label), v.integer = .ok (l.id : Int) →
      read none (.str "br") v tagged = .ok (some l) ∧
        read none (.str "br") v listed = .ok (some l) :=
    fun v l h => ⟨(read_tagged_iff hop rfl).mpr h, read_listed_iff.mpr h⟩
  refine ⟨⟨hbare _ _ ?_ rfl, hmade _ ⟨1⟩ rfl⟩, ⟨hbare _ _ ?_ rfl, hmade _ ⟨2⟩ rfl⟩,
    hbare _ _ ?_ rfl, hmade _ ⟨1⟩ rfl⟩
  all_goals simp [fraction]

end LabelPlace
end Peephole
