-- Catalogues that are written and loaded again. What is loaded are the patches that were written,
-- and nothing is rejected, whatever members are known.
import Peephole.Proofs.Catalog.Entries
import Peephole.Proofs.Patch.Written

namespace Peephole

/-! ## Catalogues -/

namespace Catalog

theorem readable_of_ofJson {table : MemberTable} {ps : List Patch} {xs : List Json}
    (h : List.Forall₂ (fun p x => Patch.ofJson (some table) x = .ok p) ps xs) :
    readable table xs = ps ∧ unreadable table xs = [] := by
  induction h with
  | nil => exact ⟨rfl, rfl⟩
  | cons hx _ ih =>
    rw [readable_cons_of_ok hx, unreadable_cons_of_ok hx, ih.1, ih.2]
    exact ⟨rfl, rfl⟩

/-- A document of entries that can be read, by any table, makes a catalogue of them. -/
theorem load_of_ofJson {look : Look} {path : Path} {ps : List Patch} {xs : List Json}
    (hlook : look.document path = .ok (.obj [("patches", .arr xs)]))
    (hread : ∀ table, List.Forall₂ (fun p x => Patch.ofJson (some table) x = .ok p) ps xs)
    (hnames : (ps.map Patch.name).Nodup) (table : Option MemberTable) :
    ∃ c, (load look path table).outcome = .ok c ∧ c.patches = ps ∧ c.rejected = [] := by
  obtain ⟨hreadable, hunreadable⟩ := readable_of_ofJson (hread (table.getD OrderedMap.empty))
  obtain ⟨c, hload, hpatches, hrejected⟩ := load_of_rejects hlook rfl rfl rfl
    (hreadable ▸ hnames) (hunreadable ▸ fun e he => nomatch he)
  rw [hunreadable] at hrejected
  exact ⟨c, hload ▸ rfl, hpatches.trans hreadable, hrejected⟩

/-! ## The laws -/

/-- A patch that was read can be written, and reading what is written gives the same patch again,
whichever members are known. And a catalogue of such patches can be written, and loading the
document gives a catalogue of the same patches in the same order, and rejects nothing. -/
theorem what_was_read_can_be_written_and_read_again :
    (∀ p : Patch, p.FromDocument →
      ∃ y, p.toJson = .ok y ∧ ∀ table, Patch.ofJson table y = .ok p) ∧
    ∀ c : Catalog, (∀ p ∈ c.patches, p.FromDocument) →
      ∃ doc, c.toJson = .ok doc ∧
        ∀ look path table, Look.document look path = .ok doc →
          ∃ c', (load look path table).outcome = .ok c' ∧ c'.patches = c.patches ∧
            c'.rejected = [] := by
  refine ⟨fun p hp => hp.toJson, ?_⟩
  intro c hc
  have hwritten := fun p hp => (hc p hp).toJson
  obtain ⟨ys, hys⟩ := mapM_isOk fun p hp => (hwritten p hp).imp fun y hy => hy.1
  refine ⟨.obj [("patches", .arr ys)], ?_, ?_⟩
  · unfold Catalog.toJson
    rw [hys]
    rfl
  · intro look path table hlook
    refine load_of_ofJson hlook ?_ c.distinct table
    intro table'
    have hboth := (List.forall₂_and_left _ _).mpr ⟨hc, mapM_eq_ok_iff.mp hys⟩
    refine hboth.imp ?_
    rintro p y ⟨hp, hy⟩
    exact Patch.ofJson_toJson (some table') hp.target_wellFormed hy

/-- A patch that names a member and has a condition within a condition, read with the member and
again without it. And a catalogue of one patch, loaded from its text. -/
theorem a_patch_with_a_member_and_a_catalogue_of_one_patch :
    let table : MemberTable := .ofList [("id", .method ⟨"S", "Id", ["S"], "S", true⟩)]
    let x : Json := .obj [("name", .str "d"), ("target", .str " T::m( A ,B)"),
      ("pattern", .arr [
        .obj [("op", .str "CALL"), ("operand", .obj [("member", .str "id")])],
        .obj [("rule", .str "any"), ("classes", .arr [.str "stack"]),
          ("where", .obj [("pred", .str "all"),
            ("of", .arr [.obj [("pred", .str "integer"), ("value", .str "3")]])])]]),
      ("remove", .int 1),
      ("insert", .arr [.obj [("op", .str "br_s"), ("operand", .int 1),
        ("labels", .arr [.int 1])]])]
    let drop : Patch := ⟨"d", ⟨"T", "m", []⟩, ⟨"d", [.exact .nop none], by simp⟩, 0, 1, [],
      by simp, by decide⟩
    let look : Look := fun _ => .ok "\x7b\"patches\": [\x7b\"name\": \"d\", \"target\": \"T::m()\",
      \"pattern\": \x7b\"name\": \"d\", \"rules\": [\x7b\"rule\": \"exact\", \"op\": \"nop\"\x7d]\x7d,
      \"keep_prefix\": 0, \"remove\": 1, \"insert\": []\x7d]\x7d"
    (∃ p y, Patch.ofJson (some table) x = .ok p ∧ p.target = ⟨"T", "m", ["A", "B"]⟩ ∧
      p.toJson = .ok y ∧ Patch.ofJson none y = .ok p) ∧
    ∃ c, (load look ⟨"", ["c"]⟩ none).outcome = .ok c ∧ c.patches = [drop] ∧ c.rejected = [] := by
  intro table x drop look
  obtain ⟨hpatch, hcatalog⟩ := what_was_read_can_be_written_and_read_again
  constructor
  · have hread : (Patch.ofJson (some table) x).toOption.any
        (fun p => decide (p.target = ⟨"T", "m", ["A", "B"]⟩)) = true := by decide +kernel
    cases hp : Patch.ofJson (some table) x with
    | error f =>
      rw [hp] at hread
      cases hread
    | ok p =>
      rw [hp] at hread
      obtain ⟨y, hy, hagain⟩ := hpatch p ⟨some table, x, _, rfl, hp⟩
      exact ⟨p, y, rfl, of_decide_eq_true hread, hy, hagain none⟩
  · have hdrop : Patch.ofJson none (.obj (drop.toFields (.obj [("name", .str "d"),
        ("rules", .arr [.obj [("rule", .str "exact"), ("op", .str "nop")]])]))) = .ok drop := by
      subst look drop x table
      rfl
    have hfrom : ∀ p ∈ [drop], p.FromDocument := by
      intro p hp
      rw [List.mem_singleton] at hp
      subst hp
      exact ⟨none, _, _, rfl, hdrop⟩
    obtain ⟨doc, hdoc, hload⟩ := hcatalog ⟨[drop], List.pairwise_singleton _ _, []⟩ hfrom
    have hobj : doc = .obj [("patches", .arr [.obj (drop.toFields (.obj [("name", .str "d"),
        ("rules", .arr [.obj [("rule", .str "exact"), ("op", .str "nop")]])]))])] :=
      (Except.ok.inj hdoc).symm
    refine hload look ⟨"", ["c"]⟩ none (document_of_parse rfl (Json.parse_eq_some ?_))
    rw [hobj]
    subst drop x table
    decide +kernel

end Catalog

end Peephole
