-- Entries that do not influence each other. Whether the entries of a document can be taken is a
-- matter of each entry alone, and of the names of all patches being distinct. So entries may be
-- left out and put in another order, and each of those that stay gives what it gave before.
import Mathlib.Data.List.Perm.Subperm
import Peephole.Proofs.Catalog.Merging
import Peephole.Proofs.Catalog.Sharing
import Peephole.Proofs.Json.Change

namespace Peephole.Catalog

open Log

variable {table : MemberTable} {c : Catalog} {xs ys : List Json}

/-! ## Fewer entries, and in another order -/

theorem readable_subperm (h : ys.Subperm xs) : (readable table ys).Subperm (readable table xs) := by
  obtain ⟨zs, hperm, hsub⟩ := h
  exact ⟨_, hperm.filterMap _, hsub.filterMap _⟩

theorem unreadable_subset (h : ys ⊆ xs) : unreadable table ys ⊆ unreadable table xs := by
  intro e he
  obtain ⟨x, hx, hread⟩ := List.mem_filterMap.mp he
  exact List.mem_filterMap.mpr ⟨x, h hx, hread⟩

/-- Entries can be taken when each can be read or is rejected, and no two have one name. -/
theorem takeAll_isOk_iff :
    (∃ c, (takeAll table empty xs).outcome = .ok c) ↔
      (∀ e ∈ unreadable table xs, e.2.Rejects) ∧ ((readable table xs).map Patch.name).Nodup := by
  constructor
  · rintro ⟨c, hc⟩
    obtain ⟨hpatches, _⟩ := takeAll_eq_ok hc
    have hnames : ((readable table xs).map Patch.name).Nodup := by
      have hdistinct := c.distinct
      rwa [hpatches] at hdistinct
    refine ⟨?_, hnames⟩
    rcases rejects_or_first table xs with hfaults | ⟨before, x, rest, f, rfl, hread, hf, hbefore⟩
    · exact hfaults
    · rw [readable_append, List.map_append] at hnames
      obtain ⟨c', _, _, hrun⟩ :=
        takeAll_append (c := empty) hbefore (List.nodup_append.mp hnames).1
      rw [hrun, takeAll_cons_of_not_rejects hread hf] at hc
      cases hc
  · rintro ⟨hfaults, hnames⟩
    obtain ⟨c, _, _, hrun⟩ := takeAll_append (c := empty) hfaults hnames
    have hall := hrun []
    rw [List.append_nil] at hall
    exact ⟨c, by rw [hall]; rfl⟩

/-- When entries can be taken, so can some of them in any order. -/
theorem takeAll_of_subperm (h : (takeAll table empty xs).outcome = .ok c) (hys : ys.Subperm xs) :
    ∃ c', (takeAll table empty ys).outcome = .ok c' := by
  obtain ⟨hfaults, hnames⟩ := takeAll_isOk_iff.mp ⟨c, h⟩
  refine takeAll_isOk_iff.mpr ⟨?_, ?_⟩
  · intro e he
    exact hfaults e (unreadable_subset hys.subset he)
  · have hreadable : (readable table ys).Subperm (readable table xs) := readable_subperm hys
    obtain ⟨zs, hperm, hsub⟩ := hreadable
    exact (hperm.map Patch.name).nodup_iff.mp ((hsub.map Patch.name).nodup hnames)

/-! ## Documents -/

/-- A document with other entries in the place of its own. -/
def withEntries (ys : List Json) : Json → Json
  | .arr _ => .arr ys
  | doc => doc.change "patches" fun _ => .arr ys

variable {look : Look} {path : Path} {doc : Json}

theorem objectOf_withEntries {text : String} {obj : Json} {field : Option Json}
    (hobj : objectOf text doc = .ok obj) (hfield : obj.item? "patches" = .ok field)
    (hparts : Json.partsOf? field = .ok xs) (hys : ys.Subperm xs) :
    ∃ obj' field', objectOf text (withEntries ys doc) = .ok obj' ∧
      obj'.item? "members" = obj.item? "members" ∧ obj'.item? "patches" = .ok field' ∧
      Json.partsOf? field' = .ok ys := by
  cases doc with
  | arr entries =>
    cases hobj
    exact ⟨_, some (.arr ys), rfl, rfl, rfl, rfl⟩
  | obj fields =>
    cases hobj
    have hother : "members" ≠ "patches" := by decide
    refine ⟨(Json.obj fields).change "patches" fun _ => .arr ys, field.map fun _ => .arr ys, rfl,
      Json.item?_change_of_ne hother, ?_, ?_⟩
    · rw [Json.item?_change, hfield]
      rfl
    · cases field with
      | some x => rfl
      | none =>
        cases hparts
        rw [List.subperm_nil.mp hys]
        rfl
  | _ => cases hobj

theorem ofDocument_of_parts {given : Option MemberTable} {text : String} {obj : Json}
    {field : Option Json} (hobj : objectOf text doc = .ok obj)
    (hmembers : membersOf given obj = .ok table) (hfield : obj.item? "patches" = .ok field)
    (hparts : Json.partsOf? field = .ok xs) :
    (ofDocument text given doc).outcome = (takeAll table empty xs).outcome := by
  have hobject : (Logged.of (objectOf text doc)).outcome = .ok obj := hobj
  have htable : (Logged.of (membersOf given obj)).outcome = .ok table := hmembers
  have hentries : (Logged.of (do Json.partsOf? (← obj.item? "patches"))).outcome = .ok xs := by
    rw [hfield]
    exact hparts
  unfold ofDocument
  rw [Logged.outcome_bind hobject, Logged.outcome_bind htable, Logged.outcome_bind hentries]
  cases htake : (takeAll table empty xs).outcome with
  | error e => rw [Logged.bind_of_error htake]
  | ok c =>
    rw [Logged.outcome_bind htake]
    rfl

/-- Only the entries of a document change, and not the members by which they are read. -/
theorem ofDocument_withEntries {given : Option MemberTable} {text : String} {obj : Json}
    {field : Option Json} (hobj : objectOf text doc = .ok obj)
    (hmembers : membersOf given obj = .ok table) (hfield : obj.item? "patches" = .ok field)
    (hparts : Json.partsOf? field = .ok xs) (hys : ys.Subperm xs) :
    (ofDocument text given (withEntries ys doc)).outcome = (takeAll table empty ys).outcome := by
  obtain ⟨obj', field', hobj', hsame, hfield', hparts'⟩ :=
    objectOf_withEntries hobj hfield hparts hys
  refine ofDocument_of_parts hobj' ?_ hfield' hparts'
  rw [← hmembers]
  unfold membersOf
  rw [hsame]

theorem load_of_document {given : Option MemberTable} (hdoc : look.document path = .ok doc) :
    load look path given = ofDocument path.text given doc := by
  have hdocument : (Logged.of (look.document path)).outcome = .ok doc := hdoc
  unfold load
  rw [if_pos (finds_of_document hdoc), Logged.bind_of_ok hdocument]
  rfl

theorem load_getD (look : Look) (path : Path) (given : Option MemberTable) :
    load look path given = load look path (some (given.getD OrderedMap.empty)) := by
  cases given <;> rfl

/-! ## The laws -/

/-- A loading leaves the table that it is given, and every other that is there, as it is, however it
ends. If it comes to an end, the patches have distinct names, and patches and rejected entries are
what each entry gives of itself. Then a document with the same entries in another order, or without
some of them, is loaded too, and each of its entries gives the same. -/
theorem entries_do_not_influence_each_other (look : Look) (path : Path) :
    (∀ (ts : Tables) (place : Option Nat),
      (loadOn look path place ts).1 = load look path (place.map (OnTables.tableAt ts)) ∧
        ts <+: (loadOn look path place ts).2) ∧
    ∀ (given : Option MemberTable) (c : Catalog), (load look path given).outcome = .ok c →
      c.names.Nodup ∧
      ∀ doc, look.document path = .ok doc →
        ∃ f, fileAt look (given.getD OrderedMap.empty) path = .ok f ∧
          c.patches = readable f.members f.entries ∧
          c.rejected = (unreadable f.members f.entries).map Prod.fst ∧
          ∀ ys, ys.Subperm f.entries →
            ∃ c', (ofDocument path.text given (withEntries ys doc)).outcome = .ok c' ∧
              (∀ look' : Look, look'.document path = .ok (withEntries ys doc) →
                (load look' path given).outcome = .ok c') ∧
              c'.patches = readable f.members ys ∧
              c'.rejected = (unreadable f.members ys).map Prod.fst ∧
              (ys.Perm f.entries →
                c'.patches.Perm c.patches ∧ c'.rejected.Perm c.rejected) ∧
              (ys.Sublist f.entries →
                c'.patches.Sublist c.patches ∧ c'.rejected.Sublist c.rejected) := by
  refine ⟨fun ts place => loadOn_spares look path place ts, ?_⟩
  intro given c h
  refine ⟨c.distinct, ?_⟩
  intro doc hdoc
  rw [load_getD] at h
  obtain ⟨f, hf, hpatches, hrejected⟩ := load_eq_ok (finds_of_document hdoc) h
  obtain ⟨d, obj, field, hd, hobj, hmembers, hfield, hparts⟩ := fileAt_eq_ok hf
  rw [hdoc] at hd
  cases hd
  have htable : membersOf given obj = .ok f.members := hmembers
  rw [load_of_document hdoc, ofDocument_of_parts hobj hmembers hfield hparts] at h
  refine ⟨f, hf, hpatches, hrejected, ?_⟩
  intro ys hys
  obtain ⟨c', hc'⟩ := takeAll_of_subperm h hys
  obtain ⟨hpatches', hrejected'⟩ := takeAll_eq_ok hc'
  have hload : (ofDocument path.text given (withEntries ys doc)).outcome = .ok c' := by
    rw [ofDocument_withEntries hobj htable hfield hparts hys]
    exact hc'
  refine ⟨c', hload, ?_, hpatches', hrejected', ?_, ?_⟩
  · intro look' hdoc'
    rw [load_of_document hdoc']
    exact hload
  · intro hperm
    rw [hpatches', hrejected', hpatches, hrejected]
    exact ⟨hperm.filterMap _, (hperm.filterMap _).map _⟩
  · intro hsub
    rw [hpatches', hrejected', hpatches, hrejected]
    exact ⟨hsub.filterMap _, (hsub.filterMap _).map _⟩

end Peephole.Catalog
