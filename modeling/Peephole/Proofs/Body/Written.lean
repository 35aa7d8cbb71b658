-- Bodies that are written and read again. However a body came about, what is written is its one
-- written form: any members read the same body from it, and that body is written the same way.
import Peephole.Proofs.Instruction.Written

namespace Peephole.Body

/-! ## The laws -/

/-- A body is read as it was written, by any members or none, an operand that a short form spells
out being told apart from one that it implies. And what a payload is written as, once it has been
read by any members, is read as the same body by any others and written as it is. -/
theorem a_body_is_read_as_it_was_written :
    (∀ (b : Body) (table : Option MemberTable), ofJson table b.toJson = .ok b) ∧
    ∀ (x y : Json) (table : Option MemberTable), (ofJson table x).map toJson = .ok y →
      ∀ table' : Option MemberTable, ofJson table' y = ofJson table x ∧
        (ofJson table' y).map toJson = .ok y := by
  refine ⟨fun b table => ofJson_toJson table b, ?_⟩
  intro x y table h table'
  obtain ⟨b, hb, rfl⟩ := ok_of_map h
  have hread := ofJson_toJson table' b
  refine ⟨hread.trans hb.symm, ?_⟩
  rw [hread]
  rfl

/-- A payload in which a constant is spelled out once and implied once, a method is named by a
member, and labels are written as texts. -/
theorem a_payload_with_a_member_and_two_spellings :
    let table : MemberTable := .ofList [("id", .method ⟨"S", "Id", ["S"], "S", true⟩)]
    let x : Json := .arr [
      .obj [("op", .str " LDC_I4_2 "), ("operand", .int 2), ("labels", .arr [.str "1"])],
      .obj [("op", .str "ldc.i4.2"), ("operand", .null)],
      .obj [("op", .str "call"), ("operand", .obj [("member", .str "id")]),
        ("blocks", .arr [.obj [("kind", .str "catch"), ("catch_type", .str "E")]])],
      .obj [("op", .str "br.s"), ("operand", .obj [("kind", .str "label"), ("id", .str "1")])]]
    ∃ b, ofJson (some table) x = .ok b ∧
      b.map (·.operand) = [some (.constant ⟨2, by decide⟩), none,
        some (.method ⟨"S", "Id", ["S"], "S", true⟩), some (.label ⟨1⟩)] ∧
      ofJson none b.toJson = .ok b ∧ (ofJson none b.toJson).map toJson = .ok b.toJson := by
  intro table x
  have hread : (ofJson (some table) x).toOption.any
      (fun b => decide (b.map (·.operand) = [some (.constant ⟨2, by decide⟩), none,
        some (.method ⟨"S", "Id", ["S"], "S", true⟩), some (.label ⟨1⟩)])) = true := by
    decide +kernel
  cases hb : ofJson (some table) x with
  | error f =>
    rw [hb] at hread
    cases hread
  | ok b =>
    rw [hb] at hread
    have hwritten : (ofJson (some table) x).map toJson = .ok b.toJson := by rw [hb]; rfl
    obtain ⟨hagain, hsame⟩ := a_body_is_read_as_it_was_written.2 x b.toJson _ hwritten none
    exact ⟨b, rfl, of_decide_eq_true hread, hagain.trans hb, hsame⟩

end Peephole.Body
