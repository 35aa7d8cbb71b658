-- Where operands stand in patches: in an instruction that is inserted, in a rule for an opcode, and
-- in a predicate however deep. A patch depends on its operands only by what they are read as.
import Peephole.Patch.Document
import Peephole.Proofs.Json.Change

namespace Peephole

/-! ## Where operands stand -/

namespace Predicate

mutual

/-- The operands that a predicate compares with. -/
def operandsIn : Json → List Json
  | .obj fields =>
    match Json.field? fields "pred" with
    | some (.str "equals") => (Json.field? fields "operand").toList
    | some (.str "all") => operandsInPart fields
    | some (.str "either") => operandsInPart fields
    | _ => []
  | _ => []

/-- The operands in the parts of a predicate that has some. -/
def operandsInPart : List (String × Json) → List Json
  | [] => []
  | (name, x) :: rest => if name = "of" then operandsInParts x else operandsInPart rest

/-- The operands in the parts that a value holds. -/
def operandsInParts : Json → List Json
  | .arr items => operandsInItems items
  | _ => []

/-- The operands in some predicates. -/
def operandsInItems : List Json → List Json
  | [] => []
  | x :: xs => operandsIn x ++ operandsInItems xs

end

mutual

/-- A predicate with its operands changed. -/
def mapOperands (f : Json → Json) : Json → Json
  | .obj fields =>
    match Json.field? fields "pred" with
    | some (.str "equals") => .obj (Json.mapField "operand" f fields)
    | some (.str "all") => .obj (mapPart f fields)
    | some (.str "either") => .obj (mapPart f fields)
    | _ => .obj fields
  | x => x

/-- The fields of a predicate with the operands in its parts changed. -/
def mapPart (f : Json → Json) : List (String × Json) → List (String × Json)
  | [] => []
  | (name, x) :: rest =>
    if name = "of" then (name, mapParts f x) :: rest else (name, x) :: mapPart f rest

/-- A value with the operands in the parts that it holds changed. -/
def mapParts (f : Json → Json) : Json → Json
  | .arr items => .arr (mapItems f items)
  | x => x

/-- Predicates with their operands changed. -/
def mapItems (f : Json → Json) : List Json → List Json
  | [] => []
  | x :: xs => mapOperands f x :: mapItems f xs

end

end Predicate

namespace Rule

/-- The kind of rule that a value says it is. -/
def kindOf (x : Json) : Json := (x.under? "rule").getD (.str "exact")

/-- The operands of a rule: its own, or those of its predicate. -/
def operandsIn (x : Json) : List Json :=
  match kindOf x with
  | .str "exact" => (x.under? "operand").toList
  | .str "any" => (x.under? "where").toList.flatMap Predicate.operandsIn
  | _ => []

/-- A rule with its operands changed. -/
def mapOperands (f : Json → Json) (x : Json) : Json :=
  match kindOf x with
  | .str "exact" => x.change "operand" f
  | .str "any" => x.change "where" (Predicate.mapOperands f)
  | _ => x

end Rule

namespace Pattern

/-- The rules of a pattern, which may be given by its rules alone. -/
def rulesIn : Json → List Json
  | .arr rules => rules
  | x => (x.under? "rules").toList.flatMap Json.items

/-- A pattern with its rules changed. -/
def mapRules (f : Json → Json) : Json → Json
  | .arr rules => .arr (rules.map f)
  | x => x.change "rules" (Json.changeItems f)

end Pattern

namespace Patch

/-- The operands of a patch: those of its rules and those of the instructions it inserts. -/
def operandsIn (x : Json) : List Json :=
  ((x.under? "pattern").toList.flatMap fun y => (Pattern.rulesIn y).flatMap Rule.operandsIn) ++
    (x.under? "insert").toList.flatMap fun y => y.items.flatMap fun i => (i.under? "operand").toList

/-- A patch with its operands changed. -/
def mapOperands (f : Json → Json) (x : Json) : Json :=
  (x.change "pattern" (Pattern.mapRules (Rule.mapOperands f))).change "insert"
    (Json.changeItems (Json.change "operand" f))

end Patch

/-! ## Reading side by side

A patch is read before and after its operands are changed, each time by members of its own. When
each operand compares, so does the patch. -/

variable {C : Comparison Fault} {t t' : Option MemberTable} {f : Json → Json}

/-- A value reads as an operand like what it is changed to. -/
structure Operand.Kept (C : Comparison Fault) (t t' : Option MemberTable) (f : Json → Json)
    (y : Json) : Prop where
  reads : ∀ shape, C.Rel (ofJson t shape y) (ofJson t' shape (f y))
  null : f y = .null ↔ y = .null

theorem Operand.beside_change {op : Opcode} {x : Json}
    (h : ∀ y, x.under? "operand" = some y → Kept C t t' f y) :
    C.Rel (beside t op x) (beside t' op (x.change "operand" f)) := by
  unfold beside
  rw [Json.present?_change fun y hy => (h y hy).null]
  apply C.step
  intro found hfound
  cases found with
  | none => exact C.refl _
  | some y => exact C.bind ((h y (Json.under?_of_present? hfound)).reads _) fun o => C.refl _

theorem Instruction.ofJson_change {x : Json}
    (h : ∀ y, x.under? "operand" = some y → Operand.Kept C t t' f y) :
    C.Rel (ofJson t x) (ofJson t' (x.change "operand" f)) := by
  have hop : opcodeOf (x.change "operand" f) = opcodeOf x := by
    unfold opcodeOf
    rw [Json.item_change_of_ne (by decide)]
  unfold ofJson
  rw [hop, Json.item?_change_of_ne (by decide), Json.item?_change_of_ne (by decide)]
  apply C.after
  intro op _
  exact C.bind (Operand.beside_change h) fun o => C.refl _

theorem Body.ofJson?_changeItems {x : Json}
    (h : ∀ i ∈ x.items, ∀ y, i.under? "operand" = some y → Operand.Kept C t t' f y) :
    C.Rel (ofJson? t (some x)) (ofJson? t' (some (x.changeItems (Json.change "operand" f)))) :=
  Json.parts_changeItems C
    (P := fun i j => C.Rel (Instruction.ofJson t i) (Instruction.ofJson t' j))
    (fun i hi => Instruction.ofJson_change (h i hi)) (fun _ => C.refl _) fun _ _ => C.mapM

namespace Predicate

theorem mapPart_eq (fields : List (String × Json)) :
    mapPart f fields = Json.mapField "of" (mapParts f) fields := by
  induction fields with
  | nil => rfl
  | cons e es ih =>
    obtain ⟨name, x⟩ := e
    simp only [mapPart, Json.mapField, ih]

mutual

/-- A predicate compares when its operands do. -/
theorem ofJson_mapOperands : ∀ x : Json, (∀ y ∈ operandsIn x, Operand.Kept C t t' f y) →
    C.Rel (ofJson t x) (ofJson t' (mapOperands f x))
  | .obj fields, h => by
    have hother : ∀ name g, name ≠ "pred" →
        Json.field? (Json.mapField name g fields) "pred" = Json.field? fields "pred" := by
      intro name g hname
      rw [Json.field?_mapField, if_neg hname.symm]
    have hpart : Json.field? (mapPart f fields) "pred" = Json.field? fields "pred" := by
      rw [mapPart_eq, hother _ _ (by decide)]
    unfold operandsIn at h
    unfold mapOperands
    split
    · rename_i hkind
      rw [hkind] at h
      unfold ofJson
      rw [hother _ _ (by decide), hkind]
      change C.Rel ((Json.obj fields).item "operand" >>= _)
        (((Json.obj fields).change "operand" f).item "operand" >>= _)
      rw [Json.item_change]
      apply C.step
      intro y hy
      have hmem : y ∈ (Json.field? fields "operand").toList :=
        Option.mem_toList.mpr (Json.under?_of_item hy)
      exact C.bind ((h y hmem).reads none) fun o => C.refl _
    · rename_i hkind
      rw [hkind] at h
      unfold ofJson
      rw [hpart, hkind]
      exact C.bind (partsIn_mapPart fields h) fun ps => C.refl _
    · rename_i hkind
      rw [hkind] at h
      unfold ofJson
      rw [hpart, hkind]
      exact C.bind (partsIn_mapPart fields h) fun ps => C.refl _
    · -- Every other kind is read without regard to members.
      unfold ofJson
      split <;> first | exact C.refl _ | exact absurd ‹_› ‹_›
  | .null, _ => C.refl _
  | .bool _, _ => C.refl _
  | .int _, _ => C.refl _
  | .float _, _ => C.refl _
  | .str _, _ => C.refl _
  | .arr _, _ => C.refl _

theorem partsIn_mapPart : ∀ fields : List (String × Json),
    (∀ y ∈ operandsInPart fields, Operand.Kept C t t' f y) →
    C.Rel (partsIn t fields) (partsIn t' (mapPart f fields))
  | [], _ => C.refl _
  | (name, x) :: rest, h => by
    unfold operandsInPart at h
    unfold mapPart
    by_cases hname : name = "of"
    · simp only [hname, if_true, partsIn] at h ⊢
      exact partsOf_mapParts x h
    · simp only [hname, if_false, partsIn] at h ⊢
      exact partsIn_mapPart rest h

theorem partsOf_mapParts : ∀ x : Json,
    (∀ y ∈ operandsInParts x, Operand.Kept C t t' f y) →
    C.Rel (partsOf t x) (partsOf t' (mapParts f x))
  | .arr items, h => ofItems_mapItems items h
  | .str s, _ => by
    simp only [mapParts, partsOf]
    exact C.refl _
  | .obj fields, _ => by
    simp only [mapParts, partsOf]
    exact C.refl _
  | .null, _ => C.refl _
  | .bool _, _ => C.refl _
  | .int _, _ => C.refl _
  | .float _, _ => C.refl _

theorem ofItems_mapItems : ∀ xs : List Json,
    (∀ y ∈ operandsInItems xs, Operand.Kept C t t' f y) →
    C.Rel (ofItems t xs) (ofItems t' (mapItems f xs))
  | [], _ => C.refl _
  | x :: xs, h => by
    unfold operandsInItems at h
    have hx := ofJson_mapOperands x fun y hy => h y (List.mem_append_left _ hy)
    have hxs := ofItems_mapItems xs fun y hy => h y (List.mem_append_right _ hy)
    exact C.bind hx fun p => C.bind hxs fun ps => C.refl _

end

theorem mapOperands_eq_null (y : Json) : mapOperands f y = .null ↔ y = .null := by
  cases y with
  | obj fields =>
    unfold mapOperands
    split <;> simp
  | _ => rfl

end Predicate

namespace Rule

theorem kindOf_eq {x : Json} {y : Option Json} (h : x.item? "rule" = .ok y) :
    kindOf x = y.getD (.str "exact") := by
  unfold kindOf
  rw [Json.under?_of_item? h]

theorem exactOfJson_change {x : Json}
    (h : ∀ y, x.under? "operand" = some y → Operand.Kept C t t' f y) :
    C.Rel (exactOfJson t x) (exactOfJson t' (x.change "operand" f)) := by
  unfold exactOfJson
  rw [Json.item_change_of_ne (by decide)]
  apply C.after
  intro name _
  apply C.after
  intro op _
  exact C.bind (Operand.beside_change h) fun o => C.refl _

theorem anyOfJson_change {x : Json}
    (h : ∀ y, x.under? "where" = some y →
      ∀ z ∈ Predicate.operandsIn y, Operand.Kept C t t' f z) :
    C.Rel (anyOfJson t x) (anyOfJson t' (x.change "where" (Predicate.mapOperands f))) := by
  unfold anyOfJson
  rw [Json.item_change_of_ne (by decide),
    Json.present?_change fun y _ => Predicate.mapOperands_eq_null y]
  apply C.after
  intro field _
  apply C.after
  intro parts _
  apply C.after
  intro classes _
  apply C.step
  intro found hfound
  cases found with
  | none => exact C.refl _
  | some y =>
    have hy := Predicate.ofJson_mapOperands y (h y (Json.under?_of_present? hfound))
    exact C.bind (C.map some hy) fun p => C.refl _

/-- A rule compares when its operands do. -/
theorem ofJson_mapOperands {x : Json} (h : ∀ y ∈ operandsIn x, Operand.Kept C t t' f y) :
    C.Rel (ofJson t x) (ofJson t' (mapOperands f x)) := by
  have hrule : (mapOperands f x).item? "rule" = x.item? "rule" := by
    unfold mapOperands
    split
    · exact Json.item?_change_of_ne (by decide)
    · exact Json.item?_change_of_ne (by decide)
    · rfl
  unfold ofJson
  rw [hrule]
  apply C.after
  intro kind hkind
  rw [← kindOf_eq hkind]
  unfold operandsIn at h
  unfold mapOperands
  split
  · rename_i hk
    simp only [hk] at h ⊢
    exact exactOfJson_change fun y hy => h y (Option.mem_toList.mpr hy)
  · rename_i hk
    simp only [hk] at h ⊢
    exact anyOfJson_change fun y hy z hz =>
      h z (List.mem_flatMap.mpr ⟨y, Option.mem_toList.mpr hy, hz⟩)
  · rename_i hk
    simp only [hk]
    exact C.refl _
  · exact C.refl _

end Rule

namespace Pattern

theorem ofParts_map {name : Except Fault String} {rules : List Json} {g : Json → Json}
    (h : ∀ y ∈ rules, C.Rel (Rule.ofJson t y) (Rule.ofJson t' (g y))) :
    C.Rel (ofParts t name rules) (ofParts t' name (rules.map g)) :=
  C.bind (C.mapM h) fun _ => C.refl _

/-- The pattern of a patch compares when the operands of its rules do. -/
theorem ofJson_mapRules {name : String} {x : Json}
    (h : ∀ y ∈ rulesIn x, ∀ z ∈ Rule.operandsIn y, Operand.Kept C t t' f z) :
    C.Rel (Patch.patternOfJson t name x)
      (Patch.patternOfJson t' name (mapRules (Rule.mapOperands f) x)) := by
  have hkeyed : (∀ y ∈ (x.under? "rules").toList.flatMap Json.items,
      ∀ z ∈ Rule.operandsIn y, Operand.Kept C t t' f z) →
      C.Rel (ofJson t x) (ofJson t' (x.change "rules" (Json.changeItems (Rule.mapOperands f)))) := by
    intro h
    unfold ofJson
    rw [Json.item_change, Json.item_change_of_ne (by decide)]
    apply C.step
    intro field hfield
    refine Json.parts_changeItems C (P := fun y z => C.Rel (Rule.ofJson t y) (Rule.ofJson t' z))
      ?_ (fun s => C.refl _) fun rules g => ofParts_map
    intro y hy
    exact Rule.ofJson_mapOperands (h y (List.mem_flatMap.mpr
      ⟨field, Option.mem_toList.mpr (Json.under?_of_item hfield), hy⟩))
  cases x with
  | arr rules => exact ofParts_map fun y hy => Rule.ofJson_mapOperands (h y hy)
  | _ => exact hkeyed h

end Pattern

namespace Patch

theorem countOf_change_of_ne {name other : String} {g : Json → Json} {x : Json}
    (h : other ≠ name) : countOf other (x.change name g) = countOf other x := by
  unfold countOf
  rw [Json.item?_change_of_ne h]

/-- A patch compares when its operands do. -/
theorem ofJson_mapOperands {x : Json} (h : ∀ y ∈ operandsIn x, Operand.Kept C t t' f y) :
    C.Rel (ofJson t x) (ofJson t' (mapOperands f x)) := by
  unfold ofJson mapOperands
  rw [Json.item_change_of_ne (by decide), Json.item_change_of_ne (by decide)]
  apply C.after
  intro name _
  rw [Json.item_change_of_ne (by decide), Json.item_change]
  apply C.step
  intro pattern hpattern
  rw [Json.item_change_of_ne (by decide), Json.item_change_of_ne (by decide)]
  apply C.after
  intro written _
  apply C.after
  intro target _
  have hrules : ∀ y ∈ Pattern.rulesIn pattern, ∀ z ∈ Rule.operandsIn y,
      Operand.Kept C t t' f z := fun y hy z hz =>
    h z (List.mem_append_left _ (List.mem_flatMap.mpr
      ⟨pattern, Option.mem_toList.mpr (Json.under?_of_item hpattern),
        List.mem_flatMap.mpr ⟨y, hy, hz⟩⟩))
  refine C.bind (Pattern.ofJson_mapRules hrules) fun pattern => ?_
  rw [countOf_change_of_ne (by decide), countOf_change_of_ne (by decide),
    countOf_change_of_ne (by decide), countOf_change_of_ne (by decide)]
  apply C.after
  intro keep _
  apply C.after
  intro remove _
  rw [Json.item?_change, Json.item?_change_of_ne (by decide)]
  apply C.step
  intro insert hinsert
  refine C.bind ?_ fun _ => C.refl _
  cases insert with
  | none => exact C.refl _
  | some body =>
    apply Body.ofJson?_changeItems
    intro i hi y hy
    exact h y (List.mem_append_right _ (List.mem_flatMap.mpr
      ⟨body, Option.mem_toList.mpr (Json.under?_of_item? hinsert),
        List.mem_flatMap.mpr ⟨i, hi, Option.mem_toList.mpr hy⟩⟩))

end Patch

end Peephole
