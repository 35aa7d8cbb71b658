-- Entries of a catalogue that cannot be read. One with a fault of a value or of a name is rejected
-- and the others are taken as if it were not there; any other fault ends the loading.
import Peephole.Catalog.Load
import Peephole.Proofs.Files.Loading
import Peephole.Proofs.Json.Identity

namespace Peephole

/-- A fault for which an entry is rejected, and no more than that. -/
def Fault.Rejects (f : Fault) : Prop := (f.isAboutValue || f.isAboutName) = true

namespace Catalog

open Log

variable {table : MemberTable} {c : Catalog} {x : Json} {xs : List Json}

/-! ## Entries -/

/-- The patches of the entries that can be read. -/
def readable (table : MemberTable) (xs : List Json) : List Patch :=
  xs.filterMap fun x => (Patch.ofJson (some table) x).toOption

/-- What stands for each entry that cannot be read, with its fault. -/
def unreadable (table : MemberTable) (xs : List Json) : List (Json × Fault) :=
  xs.filterMap fun x =>
    match Patch.ofJson (some table) x with
    | .ok _ => none
    | .error f => some (entryName x, f)

/-- What is said about the entries that cannot be read. -/
def rejections (table : MemberTable) (xs : List Json) : List Record :=
  (unreadable table xs).map fun e => rejection e.1 e.2

theorem readable_cons_of_ok {p : Patch} (h : Patch.ofJson (some table) x = .ok p) :
    readable table (x :: xs) = p :: readable table xs := by
  simp [readable, h, Except.toOption]

theorem readable_cons_of_error {f : Fault} (h : Patch.ofJson (some table) x = .error f) :
    readable table (x :: xs) = readable table xs := by
  simp [readable, h, Except.toOption]

theorem unreadable_cons_of_ok {p : Patch} (h : Patch.ofJson (some table) x = .ok p) :
    unreadable table (x :: xs) = unreadable table xs := by
  simp [unreadable, h]

theorem unreadable_cons_of_error {f : Fault} (h : Patch.ofJson (some table) x = .error f) :
    unreadable table (x :: xs) = (entryName x, f) :: unreadable table xs := by
  simp [unreadable, h]

theorem readable_append {ys : List Json} :
    readable table (xs ++ ys) = readable table xs ++ readable table ys := List.filterMap_append

theorem mem_unreadable {f : Fault} (hx : x ∈ xs) (h : Patch.ofJson (some table) x = .error f) :
    (entryName x, f) ∈ unreadable table xs := by
  refine List.mem_filterMap.mpr ⟨x, hx, ?_⟩
  rw [h]

theorem length_readable_add_unreadable :
    (readable table xs).length + (unreadable table xs).length = xs.length := by
  induction xs with
  | nil => rfl
  | cons x xs ih =>
    cases h : Patch.ofJson (some table) x with
    | ok p =>
      simp only [readable_cons_of_ok h, unreadable_cons_of_ok h, List.length_cons]
      omega
    | error f =>
      simp only [readable_cons_of_error h, unreadable_cons_of_error h, List.length_cons]
      omega

/-- Either each entry that cannot be read is rejected, or there is a first one that is not. -/
theorem rejects_or_first (table : MemberTable) (xs : List Json) :
    (∀ e ∈ unreadable table xs, e.2.Rejects) ∨
      ∃ before x rest f, xs = before ++ x :: rest ∧ Patch.ofJson (some table) x = .error f ∧
        ¬ f.Rejects ∧ ∀ e ∈ unreadable table before, e.2.Rejects := by
  induction xs with
  | nil => exact .inl fun e he => nomatch he
  | cons x xs ih =>
    cases h : Patch.ofJson (some table) x with
    | ok p =>
      rw [unreadable_cons_of_ok h]
      rcases ih with ih | ⟨before, y, rest, f, rfl, hy, hf, hbefore⟩
      · exact .inl ih
      · refine .inr ⟨x :: before, y, rest, f, rfl, hy, hf, ?_⟩
        rwa [unreadable_cons_of_ok h]
    | error g =>
      by_cases hg : g.Rejects
      · rcases ih with ih | ⟨before, y, rest, f, rfl, hy, hf, hbefore⟩
        · refine .inl ?_
          rw [unreadable_cons_of_error h, List.forall_mem_cons]
          exact ⟨hg, ih⟩
        · refine .inr ⟨x :: before, y, rest, f, rfl, hy, hf, ?_⟩
          rw [unreadable_cons_of_error h, List.forall_mem_cons]
          exact ⟨hg, hbefore⟩
      · exact .inr ⟨[], x, xs, g, rfl, h, hg, fun e he => nomatch he⟩

/-- An entry that is no object has a fault for which it is not rejected. -/
theorem ofJson_of_not_object (table : MemberTable) (hx : ∀ fields, x ≠ .obj fields) :
    Patch.ofJson (some table) x = .error (.form .notKeyed) := by
  cases x with
  | obj fields => exact absurd rfl (hx fields)
  | _ => rfl

/-! ## One entry -/

theorem add_of_not_mem {p : Patch} (h : p.name ∉ c.names) :
    ∃ c', c.add p = .ok c' ∧ c'.patches = c.patches ++ [p] ∧ c'.rejected = c.rejected := by
  unfold names at h
  unfold add
  rw [dif_neg h]
  exact ⟨_, rfl, rfl, rfl⟩

theorem takeAll_cons_of_ok {c₁ : Catalog} {p : Patch}
    (hread : Patch.ofJson (some table) x = .ok p) (hadd : c.add p = .ok c₁) :
    takeAll table c (x :: xs) = takeAll table c₁ xs := by
  have hentry : (Logged.of (Entry.ofJson table x)).outcome = .ok (.accepted p) := by
    unfold Logged.of Entry.ofJson
    rw [hread]
  have htake : (take c (.accepted p)).outcome = .ok c₁ := hadd
  rw [takeAll, Logged.bind_of_ok hentry, Logged.bind_of_ok htake]
  rfl

theorem takeAll_cons_of_rejects {f : Fault} (hread : Patch.ofJson (some table) x = .error f)
    (hf : f.Rejects) :
    takeAll table c (x :: xs) =
      ⟨(takeAll table (c.reject (entryName x)) xs).outcome,
        rejection (entryName x) f :: (takeAll table (c.reject (entryName x)) xs).records⟩ := by
  have hentry : (Logged.of (Entry.ofJson table x)).outcome = .ok (.rejected (entryName x) f) := by
    unfold Logged.of Entry.ofJson
    rw [hread]
    exact if_pos hf
  have htake : (take c (.rejected (entryName x) f)).outcome = .ok (c.reject (entryName x)) := rfl
  rw [takeAll, Logged.bind_of_ok hentry, Logged.bind_of_ok htake]
  rfl

theorem takeAll_cons_of_not_rejects {f : Fault} (hread : Patch.ofJson (some table) x = .error f)
    (hf : ¬ f.Rejects) : takeAll table c (x :: xs) = ⟨.error f, []⟩ := by
  have hentry : (Logged.of (Entry.ofJson table x)).outcome = .error f := by
    unfold Logged.of Entry.ofJson
    rw [hread]
    exact if_neg hf
  rw [takeAll, Logged.bind_of_error hentry]
  rfl

/-! ## All entries -/

/-- Entries that are read or rejected, with names that are not there, are gone through, and those
that come after them are taken into what has come of them. -/
theorem takeAll_append (hfaults : ∀ e ∈ unreadable table xs, e.2.Rejects)
    (hnames : ((c.patches ++ readable table xs).map Patch.name).Nodup) :
    ∃ c', c'.patches = c.patches ++ readable table xs ∧
      c'.rejected = c.rejected ++ (unreadable table xs).map Prod.fst ∧
      ∀ rest, takeAll table c (xs ++ rest) =
        ⟨(takeAll table c' rest).outcome,
          rejections table xs ++ (takeAll table c' rest).records⟩ := by
  -- A patch that is added joins those before it, and the names of the rest differ from its own.
  -- An entry that is rejected leaves the names as they are.
  unfold rejections
  induction xs generalizing c with
  | nil => exact ⟨c, (List.append_nil _).symm, (List.append_nil _).symm, fun rest => rfl⟩
  | cons x xs ih =>
    cases h : Patch.ofJson (some table) x with
    | ok p =>
      rw [unreadable_cons_of_ok h] at hfaults ⊢
      rw [readable_cons_of_ok h, List.append_cons] at hnames
      rw [readable_cons_of_ok h]
      have hnew : p.name ∉ c.names := by
        rw [List.map_append, List.map_append] at hnames
        have hfirst := (List.nodup_append.mp hnames).1
        exact fun hm => (List.nodup_append.mp hfirst).2.2 _ hm _ List.mem_cons_self rfl
      obtain ⟨c₁, hadd, hpatches, hrejected⟩ := add_of_not_mem hnew
      obtain ⟨c', hp, hr, hrun⟩ := ih hfaults (hpatches ▸ hnames)
      refine ⟨c', ?_, ?_, ?_⟩
      · rw [hp, hpatches, ← List.append_cons]
      · rw [hr, hrejected]
      · intro rest
        rw [List.cons_append, takeAll_cons_of_ok h hadd, hrun rest]
    | error f =>
      rw [unreadable_cons_of_error h, List.forall_mem_cons] at hfaults
      rw [readable_cons_of_error h] at hnames ⊢
      rw [unreadable_cons_of_error h]
      obtain ⟨c', hp, hr, hrun⟩ := ih (c := c.reject (entryName x)) hfaults.2 hnames
      refine ⟨c', hp, ?_, ?_⟩
      · rw [hr, List.map_cons, List.append_cons]
        rfl
      · intro rest
        rw [List.cons_append, takeAll_cons_of_rejects h hfaults.1, hrun rest]
        rfl

/-! ## Documents -/

/-- What is said at the end of a loading. -/
def loaded (path : Path) (c : Catalog) : Record :=
  ⟨.debug, .catalog, "loaded " ++ c.size.repr ++ " patch(es) from " ++ path.text⟩

section

variable {look : Look} {path : Path} {given : Option MemberTable} {doc obj : Json}

theorem load_of_entries (hdoc : look.document path = .ok doc)
    (hobj : objectOf path.text doc = .ok obj) (hmembers : membersOf given obj = .ok table)
    (hentries : obj.item? "patches" = .ok (some (.arr xs))) :
    load look path given =
      takeAll table empty xs >>= fun c => ⟨.ok c, [loaded path c]⟩ := by
  have hdocument : (Logged.of (look.document path)).outcome = .ok doc := hdoc
  have hobject : (Logged.of (objectOf path.text doc)).outcome = .ok obj := hobj
  have htable : (Logged.of (membersOf given obj)).outcome = .ok table := hmembers
  have hparts : (Logged.of (do Json.partsOf? (← obj.item? "patches"))).outcome = .ok xs := by
    rw [hentries]
    rfl
  unfold load
  rw [if_pos (finds_of_document hdoc), Logged.bind_of_ok hdocument]
  unfold ofDocument
  rw [Logged.bind_of_ok hobject, Logged.bind_of_ok htable, Logged.bind_of_ok hparts]
  rfl

theorem load_of_rejects (hdoc : look.document path = .ok doc)
    (hobj : objectOf path.text doc = .ok obj) (hmembers : membersOf given obj = .ok table)
    (hentries : obj.item? "patches" = .ok (some (.arr xs)))
    (hnames : ((readable table xs).map Patch.name).Nodup)
    (hfaults : ∀ e ∈ unreadable table xs, e.2.Rejects) :
    ∃ c, load look path given = ⟨.ok c, rejections table xs ++ [loaded path c]⟩ ∧
      c.patches = readable table xs ∧ c.rejected = (unreadable table xs).map Prod.fst := by
  obtain ⟨c, hpatches, hrejected, hrun⟩ := takeAll_append (c := empty) hfaults hnames
  have htake : takeAll table empty xs = ⟨.ok c, rejections table xs⟩ := by
    simpa [takeAll, pure, Logged.of] using hrun []
  refine ⟨c, ?_, hpatches, hrejected⟩
  rw [load_of_entries hdoc hobj hmembers hentries, htake, Logged.bind_of_ok rfl]

theorem load_of_first {before rest : List Json} {f : Fault} (hdoc : look.document path = .ok doc)
    (hobj : objectOf path.text doc = .ok obj) (hmembers : membersOf given obj = .ok table)
    (hentries : obj.item? "patches" = .ok (some (.arr (before ++ x :: rest))))
    (hnames : ((readable table before).map Patch.name).Nodup)
    (hfaults : ∀ e ∈ unreadable table before, e.2.Rejects)
    (hread : Patch.ofJson (some table) x = .error f) (hf : ¬ f.Rejects) :
    load look path given = ⟨.error f, rejections table before⟩ := by
  obtain ⟨c, -, -, hrun⟩ := takeAll_append (c := empty) hfaults hnames
  rw [load_of_entries hdoc hobj hmembers hentries, hrun, takeAll_cons_of_not_rejects hread hf,
    Logged.bind_of_error rfl, List.append_nil]

/-! ## The laws -/

/-- Where the patches that can be read have distinct names, a catalogue is loaded exactly when no
entry has a fault that is passed on. It then has the patches that can be read, in order, and has
noted each entry that cannot, with one record for each. Otherwise the loading ends with the fault
of the first entry whose fault is passed on, after a record for each entry rejected before it. An
entry that is no object has such a fault. -/
theorem entries_that_are_rejected_are_left_out (hdoc : look.document path = .ok doc)
    (hobj : objectOf path.text doc = .ok obj) (hmembers : membersOf given obj = .ok table)
    (hentries : obj.item? "patches" = .ok (some (.arr xs)))
    (hnames : ((readable table xs).map Patch.name).Nodup) :
    ((∃ c, (load look path given).outcome = .ok c) ↔ ∀ e ∈ unreadable table xs, e.2.Rejects) ∧
    (∀ c, (load look path given).outcome = .ok c →
      c.patches = readable table xs ∧ c.rejected = (unreadable table xs).map Prod.fst ∧
      c.size + c.rejected.length = xs.length ∧
      (load look path given).records = rejections table xs ++ [loaded path c]) ∧
    (∀ f, (load look path given).outcome = .error f →
      ∃ before x rest, xs = before ++ x :: rest ∧ Patch.ofJson (some table) x = .error f ∧
        ¬ f.Rejects ∧ (∀ e ∈ unreadable table before, e.2.Rejects) ∧
        (load look path given).records = rejections table before) ∧
    ((∃ x ∈ xs, ∀ fields, x ≠ .obj fields) → ∃ f, (load look path given).outcome = .error f) := by
  rcases rejects_or_first table xs with hfaults | ⟨before, x, rest, f, rfl, hread, hf, hbefore⟩
  · obtain ⟨c, hload, hpatches, hrejected⟩ :=
      load_of_rejects hdoc hobj hmembers hentries hnames hfaults
    rw [hload]
    refine ⟨⟨fun _ => hfaults, fun _ => ⟨c, rfl⟩⟩, ?_, ?_, ?_⟩
    · intro c' hc'
      cases hc'
      refine ⟨hpatches, hrejected, ?_, rfl⟩
      rw [size, hpatches, hrejected, List.length_map, length_readable_add_unreadable]
    · intro f hf
      cases hf
    · rintro ⟨x, hx, hobject⟩
      have hmem := mem_unreadable hx (ofJson_of_not_object table hobject)
      cases hfaults _ hmem
  · have hx : x ∈ before ++ x :: rest := List.mem_append_right before List.mem_cons_self
    have hnames' : ((readable table before).map Patch.name).Nodup := by
      rw [readable_append, List.map_append] at hnames
      exact (List.nodup_append.mp hnames).1
    rw [load_of_first hdoc hobj hmembers hentries hnames' hbefore hread hf]
    refine ⟨⟨?_, fun h => absurd (h _ (mem_unreadable hx hread)) hf⟩, ?_, ?_, fun _ => ⟨f, rfl⟩⟩
    · rintro ⟨c, hc⟩
      cases hc
    · intro c hc
      cases hc
    · intro g hg
      cases hg
      exact ⟨before, x, rest, rfl, hread, hf, hbefore, rfl⟩

end

/-- A catalogue of one patch, of an entry with a name alone and of one with no name at all. -/
theorem a_catalogue_with_two_entries_that_are_rejected :
    let drop : Patch := ⟨"d", ⟨"T", "m", []⟩, ⟨"d", [.exact .nop none], by simp⟩, 0, 1, [],
      by simp, by decide⟩
    let look : Look := fun _ => .ok "[\x7b\"name\":\"e\"\x7d,\x7b\"name\":\"d\",
      \"target\":\"T::m()\",\"pattern\":[\x7b\"op\":\"nop\"\x7d],\"remove\":1\x7d,\x7b\x7d]"
    ∃ c, (load look ⟨"", ["c"]⟩ none).outcome = .ok c ∧ c.patches = [drop] ∧
      c.rejected = [.str "e", .str "<unnamed>"] ∧
      (load look ⟨"", ["c"]⟩ none).records.map Record.line =
        ["WARNING ilpatch.catalog: [e] PATCH FAILED: 'pattern'",
         "WARNING ilpatch.catalog: [<unnamed>] PATCH FAILED: 'name'",
         "DEBUG ilpatch.catalog: loaded 1 patch(es) from c"] := by
  intro drop look
  let xs : List Json := [.obj [("name", .str "e")],
    .obj [("name", .str "d"), ("target", .str "T::m()"),
      ("pattern", .arr [.obj [("op", .str "nop")]]), ("remove", .int 1)],
    .obj []]
  have hdoc : look.document ⟨"", ["c"]⟩ = .ok (.arr xs) :=
    document_of_parse rfl (Json.parse_eq_some_of_chars rfl (by decide +kernel))
  have hreadable : readable OrderedMap.empty xs = [drop] := rfl
  have hunreadable : unreadable OrderedMap.empty xs =
      [(.str "e", .lookup (.missingKey "pattern")), (unnamed, .lookup (.missingKey "name"))] := rfl
  have hnames : ((readable OrderedMap.empty xs).map Patch.name).Nodup := by
    rw [hreadable]
    exact List.pairwise_singleton _ _
  have hmembers : membersOf none (.obj [("patches", .arr xs)]) = .ok OrderedMap.empty := rfl
  obtain ⟨hloads, hloaded, -, -⟩ :=
    entries_that_are_rejected_are_left_out hdoc rfl hmembers rfl hnames
  have hfaults : ∀ e ∈ unreadable OrderedMap.empty xs, e.2.Rejects := by
    rw [hunreadable]
    unfold Fault.Rejects
    simp [Fault.isAboutValue, Fault.isAboutName]
  obtain ⟨c, hc⟩ := hloads.mpr hfaults
  obtain ⟨hpatches, hrejected, -, hrecords⟩ := hloaded c hc
  refine ⟨c, hc, hpatches, hrejected, ?_⟩
  rw [hrecords]
  unfold loaded
  rw [size, hpatches, hreadable]
  decide +kernel

/-- A catalogue of a number and of a patch is not loaded, and the number is not noted. -/
theorem a_number_among_the_entries_ends_the_loading :
    let drop : Patch := ⟨"d", ⟨"T", "m", []⟩, ⟨"d", [.exact .nop none], by simp⟩, 0, 1, [],
      by simp, by decide⟩
    let look : Look := fun _ => .ok "\x7b\"patches\":[5,\x7b\"name\":\"d\",
      \"target\":\"T::m()\",\"pattern\":[\x7b\"op\":\"nop\"\x7d],\"remove\":1\x7d]\x7d"
    ∃ doc xs, look.document ⟨"", ["c"]⟩ = .ok doc ∧ membersOf none doc = .ok OrderedMap.empty ∧
      doc.item? "patches" = .ok (some (.arr xs)) ∧ readable OrderedMap.empty xs = [drop] ∧
      load look ⟨"", ["c"]⟩ none = ⟨.error (.form .notKeyed), []⟩ := by
  intro drop look
  let x : Json := .obj [("name", .str "d"), ("target", .str "T::m()"),
    ("pattern", .arr [.obj [("op", .str "nop")]]), ("remove", .int 1)]
  have hdoc : look.document ⟨"", ["c"]⟩ = .ok (.obj [("patches", .arr [.int 5, x])]) :=
    document_of_parse rfl (Json.parse_eq_some_of_chars rfl (by decide +kernel))
  have hentries : Json.item? "patches" (.obj [("patches", .arr [.int 5, x])]) =
      .ok (some (.arr ([] ++ .int 5 :: [x]))) := rfl
  have hread : Patch.ofJson (some OrderedMap.empty) (.int 5) = .error (.form .notKeyed) := rfl
  have hfault : ¬ Fault.Rejects (.form .notKeyed) := by
    simp [Fault.Rejects, Fault.isAboutValue, Fault.isAboutName]
  refine ⟨_, [.int 5, x], hdoc, rfl, rfl, rfl, ?_⟩
  exact load_of_first hdoc rfl rfl hentries List.nodup_nil (fun e he => nomatch he) hread hfault

end Catalog

end Peephole
