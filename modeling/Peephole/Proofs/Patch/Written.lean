-- Patches that are written and read again. A patch that was read from a document can be written,
-- and is read again as the same patch whatever members are known.
import Peephole.Patch.Document
import Peephole.Proofs.Patch.Outcomes
import Peephole.Proofs.Pattern.Written
import Peephole.Proofs.Selector.Key

namespace Peephole.Patch

variable (table : Option MemberTable)

/-- A patch that was read from a document in which its target is written out. -/
def FromDocument (p : Patch) : Prop :=
  ∃ table x s, x.item "target" = .ok (.str s) ∧ ofJson table x = .ok p

@[simp] theorem make_self (p : Patch) :
    make p.name p.target p.pattern p.keep p.remove p.insert = .ok p := by
  have hfits := p.fits
  unfold make
  rw [dif_neg p.named, dif_neg (by omega), dif_neg (by omega)]
  simp

/-- The fields that a patch is written with. -/
def toFields (p : Patch) (pattern : Json) : List (String × Json) :=
  [("name", .str p.name), ("target", p.target.toJson), ("pattern", pattern),
    ("keep_prefix", .int p.keep), ("remove", .int p.remove), ("insert", Body.toJson p.insert)]

theorem toJson_eq_ok {p : Patch} {y : Json} (h : p.toJson = .ok y) :
    ∃ pattern, p.pattern.toJson = .ok pattern ∧ y = .obj (p.toFields pattern) := by
  obtain ⟨pattern, hpattern, h⟩ := ok_of_bind h
  cases h
  exact ⟨pattern, hpattern, rfl⟩

theorem countOf_eq {fields : List (String × Json)} {name : String} {n : Int}
    (h : Json.field? fields name = some (.int n)) : countOf name (.obj fields) = .ok n := by
  unfold countOf
  rw [Json.item?_eq h]
  rfl

theorem patternOfJson_toJson {p : Pattern} {y : Json} (name : String) (h : p.toJson = .ok y) :
    patternOfJson table name y = .ok p := by
  have hread := Pattern.ofJson_toJson table h
  obtain ⟨rules, _, h⟩ := ok_of_bind h
  cases h
  exact hread

/-- A patch is read as it was written, if its target can be read. -/
theorem ofJson_toJson {p : Patch} {y : Json} (htarget : p.target.WellFormed)
    (h : p.toJson = .ok y) : ofJson table y = .ok p := by
  obtain ⟨pattern, hpattern, rfl⟩ := toJson_eq_ok h
  have hname : Json.field? (p.toFields pattern) "name" = some (.str p.name) := by
    simp [toFields, Json.field?]
  have hpatternField : Json.field? (p.toFields pattern) "pattern" = some pattern := by
    simp [toFields, Json.field?, List.lookup_cons]
  have htargetField : Json.field? (p.toFields pattern) "target" = some (.str p.target.key) := by
    simp [toFields, Json.field?, List.lookup_cons, Selector.toJson]
  have hkeep : Json.field? (p.toFields pattern) "keep_prefix" = some (.int p.keep) := by
    simp [toFields, Json.field?, List.lookup_cons]
  have hremove : Json.field? (p.toFields pattern) "remove" = some (.int p.remove) := by
    simp [toFields, Json.field?, List.lookup_cons]
  have hinsert : Json.field? (p.toFields pattern) "insert" = some (Body.toJson p.insert) := by
    simp [toFields, Json.field?, List.lookup_cons]
  have hselector : Selector.ofJson (.str p.target.key) = .ok p.target := by
    simp only [Selector.ofJson, Selector.parse_key htarget]
  have hbody : Body.ofJson? table (some (Body.toJson p.insert)) = .ok p.insert :=
    Body.ofJson_toJson table p.insert
  unfold ofJson
  rw [Json.item_eq hname, Json.item_eq hpatternField, Json.item_eq htargetField,
    Json.item?_eq hinsert, countOf_eq hkeep, countOf_eq hremove]
  simp only [bind, Except.bind, hselector, patternOfJson_toJson table _ hpattern, hbody, Json.text,
    make_self]
  rfl

/-- A patch that was read has a target and a pattern that were read. -/
theorem ofJson_eq_ok {x : Json} {p : Patch} (h : ofJson table x = .ok p) :
    (∃ y, x.item "target" = .ok y ∧ Selector.ofJson y = .ok p.target) ∧
      ∃ name y, patternOfJson table name y = .ok p.pattern := by
  obtain ⟨name, _, h⟩ := ok_of_bind h
  obtain ⟨rules, _, h⟩ := ok_of_bind h
  obtain ⟨written, hwritten, h⟩ := ok_of_bind h
  obtain ⟨target, htarget, h⟩ := ok_of_bind h
  obtain ⟨pattern, hpattern, h⟩ := ok_of_bind h
  obtain ⟨keep, _, h⟩ := ok_of_bind h
  obtain ⟨remove, _, h⟩ := ok_of_bind h
  obtain ⟨items, _, h⟩ := ok_of_bind h
  obtain ⟨insert, _, h⟩ := ok_of_bind h
  obtain ⟨_, rfl, rfl, _⟩ := make_eq_ok (ok_of_mapError h)
  exact ⟨⟨written, hwritten, htarget⟩, name.text, rules, hpattern⟩

theorem toJson_of_patternOfJson {name : String} {x : Json} {p : Pattern}
    (h : patternOfJson table name x = .ok p) : ∃ y, p.toJson = .ok y := by
  unfold patternOfJson at h
  split at h
  · exact Pattern.toJson_of_ofParts table h
  · exact Pattern.toJson_of_ofJson table h

/-- A patch that was read can be written. -/
theorem toJson_of_ofJson {x : Json} {p : Patch} (h : ofJson table x = .ok p) :
    ∃ y, p.toJson = .ok y := by
  obtain ⟨_, name, rules, hpattern⟩ := ofJson_eq_ok table h
  obtain ⟨pattern, hp⟩ := toJson_of_patternOfJson table hpattern
  unfold toJson
  rw [hp]
  exact ⟨_, rfl⟩

variable {p : Patch}

theorem FromDocument.target_wellFormed (h : p.FromDocument) : p.target.WellFormed := by
  obtain ⟨table, x, s, hs, hp⟩ := h
  obtain ⟨⟨y, hy, hread⟩, _⟩ := ofJson_eq_ok table hp
  rw [hs] at hy
  cases hy
  exact Selector.wellFormed_of_parse (Selector.ofJson_str_eq_ok_iff.mp hread)

/-- A patch from a document can be written, and is read again by any table. -/
theorem FromDocument.toJson (h : p.FromDocument) :
    ∃ y, p.toJson = .ok y ∧ ∀ table, ofJson table y = .ok p := by
  have htarget := h.target_wellFormed
  obtain ⟨table, x, s, _, hp⟩ := h
  obtain ⟨y, hy⟩ := toJson_of_ofJson table hp
  exact ⟨y, hy, fun table' => ofJson_toJson table' htarget hy⟩

end Peephole.Patch
