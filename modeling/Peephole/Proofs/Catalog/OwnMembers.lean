-- The members that a catalogue declares of its own. It declares them as a file of members does, but
-- with a check: a file binds a name again to another member, and the later one counts, where a
-- catalogue is refused.
import Peephole.Member.Load
import Peephole.Proofs.Catalog.Independence
import Peephole.Proofs.Json.Identity
import Peephole.Proofs.Member.Declarations

namespace Peephole

variable {doc obj : Json} {entries fields methods : List (String × Json)}
  {fs : List (String × FieldRef)} {ms : List (String × MethodRef)}

namespace MemberTable

/-! ## What sections declare -/

/-- The names of a section, each with what its entry is read as. -/
def readAll {α : Type} (read : Json → Except Fault α) (entries : List (String × Json)) :
    Except Fault (List (String × α)) :=
  entries.mapM fun e => (read e.2).map fun a => (e.1, a)

/-- What fields and methods declare under their names, the fields first. -/
def declared (fs : List (String × FieldRef)) (ms : List (String × MethodRef)) :
    List (String × Member) :=
  (fs.map fun e => (e.1, .field e.2)) ++ ms.map fun e => (e.1, .method e.2)

theorem readAll_eq_ok_iff {α : Type} {read : Json → Except Fault α} {xs : List (String × α)} :
    readAll read entries = .ok xs ↔
      List.Forall₂ (fun e x => x.1 = e.1 ∧ read e.2 = .ok x.2) entries xs := by
  unfold readAll
  rw [mapM_eq_ok_iff]
  have hitem : ∀ (e : String × Json) (x : String × α),
      (read e.2).map (fun a => (e.1, a)) = .ok x ↔ x.1 = e.1 ∧ read e.2 = .ok x.2 := by
    rintro ⟨name, y⟩ ⟨k, a⟩
    cases read y with
    | error f => simp [Except.map]
    | ok b => simp [Except.map, eq_comm]
  simp only [hitem]

theorem exists_readAll {α : Type} {read : Json → Except Fault α}
    (h : ∀ e ∈ entries, ∃ a, read e.2 = .ok a) : ∃ xs, readAll read entries = .ok xs := by
  refine mapM_isOk fun e he => ?_
  obtain ⟨a, ha⟩ := h e he
  exact ⟨(e.1, a), by rw [ha]; rfl⟩

theorem names_of_readAll {α : Type} {read : Json → Except Fault α} {xs : List (String × α)}
    (h : readAll read entries = .ok xs) : xs.map Prod.fst = entries.map Prod.fst := by
  rw [readAll_eq_ok_iff] at h
  induction h with
  | nil => rfl
  | cons he _ ih => rw [List.map_cons, List.map_cons, he.1, ih]

/-- Names in one section at most once agree when none stands in both sections: a field is never a
method. -/
theorem agree_declared_iff (hfs : (fs.map Prod.fst).Nodup) (hms : (ms.map Prod.fst).Nodup) :
    Agree (declared fs ms) ↔ ∀ k ∈ fs.map Prod.fst, k ∉ ms.map Prod.fst := by
  constructor
  · intro h k hfirst hsecond
    obtain ⟨⟨i, f⟩, hf, rfl⟩ := List.mem_map.mp hfirst
    obtain ⟨⟨j, m⟩, hm, hkey⟩ := List.mem_map.mp hsecond
    have hfield : (i, Member.field f) ∈ declared fs ms :=
      List.mem_append_left _ (List.mem_map.mpr ⟨(i, f), hf, rfl⟩)
    have hmethod : (j, Member.method m) ∈ declared fs ms :=
      List.mem_append_right _ (List.mem_map.mpr ⟨(j, m), hm, rfl⟩)
    cases h _ hfield _ hmethod hkey.symm
  · intro h x hx y hy hkey
    unfold declared at hx hy
    rw [List.mem_append, List.mem_map, List.mem_map] at hx hy
    rcases hx with ⟨⟨i, a⟩, ha, rfl⟩ | ⟨⟨i, a⟩, ha, rfl⟩
    · rcases hy with ⟨⟨j, b⟩, hb, rfl⟩ | ⟨⟨j, b⟩, hb, rfl⟩
      · cases List.inj_on_of_nodup_map hfs ha hb hkey
        rfl
      · exact absurd (List.mem_map.mpr ⟨_, hb, hkey.symm⟩) (h i (List.mem_map.mpr ⟨_, ha, rfl⟩))
    · rcases hy with ⟨⟨j, b⟩, hb, rfl⟩ | ⟨⟨j, b⟩, hb, rfl⟩
      · exact absurd (List.mem_map.mpr ⟨_, ha, hkey⟩) (h j (List.mem_map.mpr ⟨_, hb, rfl⟩))
      · cases List.inj_on_of_nodup_map hms ha hb hkey
        rfl

/-! ## Reading sections -/

variable {put : MemberTable → String → Member → Except Fault MemberTable} {t : MemberTable}

theorem sectionOf_eq {name : String} (h : doc.item? name = .ok (some (.obj entries))) :
    sectionOf name doc = .ok entries := by
  unfold sectionOf
  rw [h]
  cases entries <;> rfl

theorem readEntries_eq {α : Type} {read : Json → Except Fault α} {wrap : α → Member}
    {xs : List (String × α)} (h : readAll read entries = .ok xs) :
    readEntries (fun x => (read x).map wrap) put t entries =
      (xs.map fun e => (e.1, wrap e.2)).foldlM (fun t e => put t e.1 e.2) t := by
  rw [readAll_eq_ok_iff] at h
  induction h generalizing t with
  | nil => rfl
  | @cons e x entries xs he _ ih =>
    have hstep : readEntries (fun x => (read x).map wrap) put t (e :: entries) =
        (do readEntries (fun x => (read x).map wrap) put (← put t x.1 (wrap x.2)) entries) := by
      rw [readEntries, List.foldlM_cons, he.2, ← he.1]
      rfl
    rw [hstep, List.map_cons, List.foldlM_cons]
    exact bind_congr fun u => ih

theorem readSections_eq (hfields : sectionOf "fields" doc = .ok fields)
    (hmethods : sectionOf "methods" doc = .ok methods)
    (hfs : readAll FieldRef.ofJson fields = .ok fs)
    (hms : readAll MethodRef.ofJson methods = .ok ms) :
    readSections put t doc = (declared fs ms).foldlM (fun t e => put t e.1 e.2) t := by
  unfold readSections declared
  rw [hfields, hmethods, List.foldlM_append, ← readEntries_eq hfs]
  simp only [← readEntries_eq hms]
  rfl

/-! ## The two ways -/

/-- A file binds what it declares without a check. -/
theorem ofDocument_eq {path : String} (hfields : doc.item? "fields" = .ok (some (.obj fields)))
    (hmethods : doc.item? "methods" = .ok (some (.obj methods)))
    (hfs : readAll FieldRef.ofJson fields = .ok fs)
    (hms : readAll MethodRef.ofJson methods = .ok ms) :
    ofDocument path doc = .ok (.ofList (declared fs ms)) := by
  cases doc with
  | obj entries =>
    change readSections _ OrderedMap.empty _ = _
    rw [readSections_eq (sectionOf_eq hfields) (sectionOf_eq hmethods) hfs hms]
    exact List.foldlM_pure
  | _ => cases hfields

theorem load_of_document {look : Look} {path : Path} {t : MemberTable}
    (hdoc : look.document path = .ok doc) (h : ofDocument path.text doc = .ok t) :
    load look path = .of (.ok t) := by
  unfold load
  rw [if_pos (finds_of_document hdoc), hdoc]
  exact congrArg Log.Logged.of h

end MemberTable

namespace Catalog

open MemberTable

/-- A catalogue declares its members one after the other, as far as they agree. -/
theorem membersOf_eq (hown : obj.item? "members" = .ok (some doc))
    (hfields : doc.item? "fields" = .ok (some (.obj fields)))
    (hmethods : doc.item? "methods" = .ok (some (.obj methods)))
    (hfs : readAll FieldRef.ofJson fields = .ok fs)
    (hms : readAll MethodRef.ofJson methods = .ok ms) :
    membersOf none obj =
      match MemberTable.addAll OrderedMap.empty (declared fs ms) with
      | (u, none) => .ok u
      | (_, some f) => .error f := by
  have hsays : doc.truthy = true := by
    cases doc with
    | obj entries =>
      cases entries with
      | nil => cases hfields
      | cons e es => rfl
    | _ => cases hfields
  unfold membersOf
  rw [hown]
  change (if doc.truthy then declare OrderedMap.empty doc else _) = _
  rw [if_pos hsays]
  unfold declare
  rw [readSections_eq (sectionOf_eq hfields) (sectionOf_eq hmethods) hfs hms]
  exact foldlM_add OrderedMap.empty (declared fs ms)

theorem load_of_membersOf_error {look : Look} {path : Path} {given : Option MemberTable}
    {fields : List (String × Json)} {f : Fault} (hdoc : look.document path = .ok (.obj fields))
    (h : membersOf given (.obj fields) = .error f) : load look path given = .of (.error f) := by
  have hobject : (Log.Logged.of (objectOf path.text (.obj fields))).outcome =
      .ok (.obj fields) := rfl
  have hmembers : (Log.Logged.of (membersOf given (.obj fields))).outcome = .error f := h
  rw [load_of_document hdoc]
  unfold ofDocument
  rw [Log.Logged.bind_of_ok hobject, Log.Logged.bind_of_error hmembers]
  rfl

/-! ## The laws -/

/-- Let the entries of two sections be read. A file that holds them binds each name to what is
declared last under it, and is never refused. A catalogue that declares them comes to the same
table when no name is given two members, which is when no name stands in both sections. Otherwise
it is refused, with the fault of the first declaration that goes against one before it. -/
theorem a_catalogue_declares_what_a_file_does_unless_a_name_has_two_members
    {look : Look} {path : Path} (hdoc : look.document path = .ok doc)
    (hfields : doc.item? "fields" = .ok (some (.obj fields)))
    (hmethods : doc.item? "methods" = .ok (some (.obj methods)))
    (hf : ∀ e ∈ fields, ∃ f, FieldRef.ofJson e.2 = .ok f)
    (hm : ∀ e ∈ methods, ∃ m, MethodRef.ofJson e.2 = .ok m)
    (hown : obj.item? "members" = .ok (some doc)) :
    ∃ fs ms, readAll FieldRef.ofJson fields = .ok fs ∧ readAll MethodRef.ofJson methods = .ok ms ∧
      MemberTable.load look path = .of (.ok (.ofList (declared fs ms))) ∧
      (∀ k, (OrderedMap.ofList (declared fs ms)).find? k = (declared fs ms).reverse.lookup k) ∧
      (membersOf none obj = (MemberTable.load look path).outcome ↔ Agree (declared fs ms)) ∧
      ((fields.map Prod.fst).Nodup → (methods.map Prod.fst).Nodup →
        (Agree (declared fs ms) ↔ ∀ k ∈ fields.map Prod.fst, k ∉ methods.map Prod.fst)) ∧
      (¬ Agree (declared fs ms) → ∃ before k m n rest, declared fs ms = before ++ (k, m) :: rest ∧
        Agree before ∧ (k, n) ∈ before ∧ n ≠ m ∧
        membersOf none obj = .error (.value (.alreadyDeclared k n)) ∧
        ∀ (look' : Look) (path' : Path), look'.document path' = .ok obj →
          Catalog.load look' path' none = .of (.error (.value (.alreadyDeclared k n)))) := by
  obtain ⟨fs, hfs⟩ := exists_readAll hf
  obtain ⟨ms, hms⟩ := exists_readAll hm
  have hfile : MemberTable.load look path = .of (.ok (.ofList (declared fs ms))) :=
    MemberTable.load_of_document hdoc (ofDocument_eq hfields hmethods hfs hms)
  have hmembers := membersOf_eq hown hfields hmethods hfs hms
  have hclash : ¬ Agree (declared fs ms) → ∃ before k m n rest,
      declared fs ms = before ++ (k, m) :: rest ∧ Agree before ∧ (k, n) ∈ before ∧ n ≠ m ∧
        membersOf none obj = .error (.value (.alreadyDeclared k n)) := by
    intro h
    obtain ⟨before, k, m, n, rest, hes, hbefore, hk, hne, hadd⟩ := addAll_empty_of_clash h
    refine ⟨before, k, m, n, rest, hes, hbefore, hk, hne, ?_⟩
    rw [hmembers, hadd]
  refine ⟨fs, ms, hfs, hms, hfile, ?_, ?_, ?_, ?_⟩
  · intro k
    exact (OrderedMap.find?_insertAll _ _ k).trans (Option.or_none)
  · rw [hfile]
    constructor
    · intro hsame
      by_contra h
      obtain ⟨_, _, _, _, _, _, _, _, _, hfault⟩ := hclash h
      rw [hfault] at hsame
      cases hsame
    · intro h
      rw [hmembers, addAll_empty_of_agree h]
      rfl
  · intro hdistinct hdistinct'
    rw [← names_of_readAll hfs] at hdistinct ⊢
    rw [← names_of_readAll hms] at hdistinct' ⊢
    exact agree_declared_iff hdistinct hdistinct'
  · intro h
    obtain ⟨before, k, m, n, rest, hes, hbefore, hk, hne, hfault⟩ := hclash h
    refine ⟨before, k, m, n, rest, hes, hbefore, hk, hne, hfault, ?_⟩
    intro look' path' hdoc'
    cases obj with
    | obj own => exact load_of_membersOf_error hdoc' hfault
    | _ => cases hown

/-- A file with a field and a method, and a catalogue that declares the same. -/
theorem a_field_and_a_method_declared_in_two_ways :
    let doc : Json := .obj [
      ("fields", .obj [("x", .obj [("type", .str "T"), ("name", .str "x")])]),
      ("methods", .obj [("m", .obj [("type", .str "T"), ("name", .str "m")])])]
    let look : Look := fun _ => .ok "\x7b\"fields\":\x7b\"x\":\x7b\"type\":\"T\",\"name\":\"x\"\x7d\x7d,
      \"methods\":\x7b\"m\":\x7b\"type\":\"T\",\"name\":\"m\"\x7d\x7d\x7d"
    look.document ⟨"", ["m"]⟩ = .ok doc ∧
      membersOf none (.obj [("members", doc)]) = (MemberTable.load look ⟨"", ["m"]⟩).outcome ∧
      MemberTable.load look ⟨"", ["m"]⟩ = .of (.ok (.ofList [
        ("x", .field ⟨"T", "x", "object", true⟩), ("m", .method ⟨"T", "m", [], "void", true⟩)])) := by
  intro doc look
  have hdoc : look.document ⟨"", ["m"]⟩ = .ok doc :=
    document_of_parse rfl (Json.parse_eq_some_of_chars rfl (by decide +kernel))
  have hfields : ∀ e ∈ [("x", Json.obj [("type", .str "T"), ("name", .str "x")])],
      ∃ f, FieldRef.ofJson e.2 = .ok f := by
    intro e he
    cases List.mem_singleton.mp he
    exact ⟨_, rfl⟩
  have hmethods : ∀ e ∈ [("m", Json.obj [("type", .str "T"), ("name", .str "m")])],
      ∃ m, MethodRef.ofJson e.2 = .ok m := by
    intro e he
    cases List.mem_singleton.mp he
    exact ⟨_, rfl⟩
  have hown : (Json.obj [("members", doc)]).item? "members" = .ok (some doc) := rfl
  obtain ⟨fs, ms, hfs, hms, hload, -, hsame, hdisjoint, -⟩ :=
    a_catalogue_declares_what_a_file_does_unless_a_name_has_two_members hdoc rfl rfl hfields
      hmethods hown
  refine ⟨hdoc, hsame.mpr ((hdisjoint (by decide) (by decide)).mpr (by decide)), ?_⟩
  cases hfs
  cases hms
  exact hload

/-- A file with a field and a method of one name binds the name to the method. A catalogue that
declares the same is refused. -/
theorem a_name_in_both_sections_is_refused_in_a_catalogue_alone :
    let doc : Json := .obj [
      ("fields", .obj [("k", .obj [("type", .str "A"), ("name", .str "f")])]),
      ("methods", .obj [("k", .obj [("type", .str "A"), ("name", .str "m")])])]
    let look : Look := fun _ => .ok "\x7b\"fields\":\x7b\"k\":\x7b\"type\":\"A\",\"name\":\"f\"\x7d\x7d,
      \"methods\":\x7b\"k\":\x7b\"type\":\"A\",\"name\":\"m\"\x7d\x7d\x7d"
    look.document ⟨"", ["m"]⟩ = .ok doc ∧
      MemberTable.load look ⟨"", ["m"]⟩ =
        .of (.ok (.ofList [("k", .method ⟨"A", "m", [], "void", true⟩)])) ∧
      membersOf none (.obj [("members", doc)]) =
        .error (.value (.alreadyDeclared "k" (.field ⟨"A", "f", "object", true⟩))) := by
  intro doc look
  have hdoc : look.document ⟨"", ["m"]⟩ = .ok doc :=
    document_of_parse rfl (Json.parse_eq_some_of_chars rfl (by decide +kernel))
  exact ⟨hdoc, MemberTable.load_of_document hdoc rfl, rfl⟩

end Catalog
end Peephole
