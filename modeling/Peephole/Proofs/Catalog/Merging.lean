-- Catalogues that are put together. What has been loaded from a file, and then from one file after
-- another, is what can be read of their entries, each in its place, and nothing is lost on the way.
import Peephole.Catalog.Builtin
import Peephole.Proofs.Catalog.Entries

namespace Peephole.Catalog

open Log

variable {table given : MemberTable} {c c' : Catalog} {look : Look} {path : Path}

/-! ## One after the other -/

theorem add_eq_ok {p : Patch} (h : c.add p = .ok c') :
    c'.patches = c.patches ++ [p] ∧ c'.rejected = c.rejected := by
  unfold add at h
  split at h
  · cases h
  · cases h
    exact ⟨rfl, rfl⟩

theorem extend_eq_ok {ps : List Patch} (h : c.extend ps = .ok c') :
    c'.patches = c.patches ++ ps ∧ c'.rejected = c.rejected := by
  unfold extend at h
  induction ps generalizing c with
  | nil =>
    cases h
    simp
  | cons p ps ih =>
    rw [List.foldlM_cons] at h
    obtain ⟨c₁, hadd, h⟩ := ok_of_bind h
    obtain ⟨hp, hr⟩ := add_eq_ok hadd
    obtain ⟨hps, hrs⟩ := ih h
    simp [hps, hrs, hp, hr]

theorem builtin_eq_ok {q : Patch} {table : Option MemberTable} (hq : blueprintsPatch table = .ok q)
    (h : builtin table = .ok c) : c.patches = [q] ∧ c.rejected = [] := by
  unfold builtin at h
  rw [hq] at h
  exact add_eq_ok (c := empty) h

/-- Entries that have been taken are those that can be read, and the others are noted. -/
theorem takeAll_eq_ok {xs : List Json} (h : (takeAll table c xs).outcome = .ok c') :
    c'.patches = c.patches ++ readable table xs ∧
      c'.rejected = c.rejected ++ (unreadable table xs).map Prod.fst := by
  induction xs generalizing c with
  | nil =>
    cases h
    simp [readable, unreadable]
  | cons x xs ih =>
    obtain ⟨e, hentry, h⟩ := Logged.outcome_bind_eq_ok h
    obtain ⟨c₁, htake, h⟩ := Logged.outcome_bind_eq_ok h
    obtain ⟨hps, hrs⟩ := ih h
    change Entry.ofJson table x = .ok e at hentry
    unfold Entry.ofJson at hentry
    cases hx : Patch.ofJson (some table) x with
    | ok p =>
      simp only [hx] at hentry
      cases hentry
      obtain ⟨hp, hr⟩ := add_eq_ok htake
      simp [hps, hrs, hp, hr, readable_cons_of_ok hx, unreadable_cons_of_ok hx]
    | error f =>
      simp only [hx] at hentry
      split at hentry
      · cases hentry
        cases htake
        simp [hps, hrs, reject, readable_cons_of_error hx, unreadable_cons_of_error hx]
      · cases hentry

/-! ## Files -/

/-- What a catalogue file holds: entries, and the members by which they are read. -/
structure File where
  members : MemberTable
  entries : List Json

/-- What the file at a path holds, where some members are given. -/
def fileAt (look : Look) (given : MemberTable) (path : Path) : Except Fault File := do
  let doc ← look.document path
  let obj ← objectOf path.text doc
  let members ← membersOf (some given) obj
  let entries ← Json.partsOf? (← obj.item? "patches")
  return ⟨members, entries⟩

/-- The patches that can be read. -/
def File.patches (f : File) : List Patch := readable f.members f.entries

/-- What stands for the entries that cannot be read. -/
def File.rejected (f : File) : List Json := (unreadable f.members f.entries).map Prod.fst

/-- An entry is rejected unless it can be read. -/
theorem File.rejected_eq_nil_iff (f : File) :
    f.rejected = [] ↔ ∀ x ∈ f.entries, ∃ p, Patch.ofJson (some f.members) x = .ok p := by
  unfold rejected
  rw [List.map_eq_nil_iff]
  constructor
  · intro h x hx
    cases hread : Patch.ofJson (some f.members) x with
    | ok p => exact ⟨p, rfl⟩
    | error g =>
      have hmem := mem_unreadable hx hread
      rw [h] at hmem
      cases hmem
  · intro h
    refine List.filterMap_eq_nil_iff.mpr fun x hx => ?_
    obtain ⟨p, hp⟩ := h x hx
    simp only [hp]

theorem fileAt_of_parts {doc obj : Json} {field : Option Json} {xs : List Json}
    (hdoc : look.document path = .ok doc) (hobj : objectOf path.text doc = .ok obj)
    (hmembers : membersOf (some given) obj = .ok table) (hfield : obj.item? "patches" = .ok field)
    (hparts : Json.partsOf? field = .ok xs) : fileAt look given path = .ok ⟨table, xs⟩ := by
  unfold fileAt
  simp only [hdoc, hobj, hmembers, hfield, hparts, bind, Except.bind]
  rfl

theorem fileAt_eq_ok {f : File} (h : fileAt look given path = .ok f) :
    ∃ doc obj field, look.document path = .ok doc ∧ objectOf path.text doc = .ok obj ∧
      membersOf (some given) obj = .ok f.members ∧ obj.item? "patches" = .ok field ∧
      Json.partsOf? field = .ok f.entries := by
  obtain ⟨doc, hdoc, h⟩ := ok_of_bind h
  obtain ⟨obj, hobj, h⟩ := ok_of_bind h
  obtain ⟨members, hmembers, h⟩ := ok_of_bind h
  obtain ⟨field, hfield, h⟩ := ok_of_bind h
  obtain ⟨entries, hparts, h⟩ := ok_of_bind h
  cases h
  exact ⟨doc, obj, field, hdoc, hobj, hmembers, hfield, hparts⟩

theorem load_eq_ok (hfound : look.finds path = true)
    (h : (load look path (some given)).outcome = .ok c) :
    ∃ f, fileAt look given path = .ok f ∧ c.patches = f.patches ∧ c.rejected = f.rejected := by
  unfold load at h
  rw [if_pos hfound] at h
  obtain ⟨doc, hdoc, h⟩ := Logged.outcome_bind_eq_ok h
  obtain ⟨obj, hobj, h⟩ := Logged.outcome_bind_eq_ok h
  obtain ⟨members, hmembers, h⟩ := Logged.outcome_bind_eq_ok h
  obtain ⟨entries, hentries, h⟩ := Logged.outcome_bind_eq_ok h
  obtain ⟨c', htake, h⟩ := Logged.outcome_bind_eq_ok h
  obtain ⟨_, _, h⟩ := Logged.outcome_bind_eq_ok h
  cases h
  obtain ⟨hpatches, hrejected⟩ := takeAll_eq_ok htake
  refine ⟨⟨members, entries⟩, ?_, hpatches, hrejected⟩
  obtain ⟨field, hfield, hparts⟩ := ok_of_bind hentries
  exact fileAt_of_parts hdoc hobj hmembers hfield hparts

end Peephole.Catalog
