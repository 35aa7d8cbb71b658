-- Tables that others hold, too. A table is changed where it stands, and whoever knows it sees the
-- change. A loading makes a table of its own, a copy of the one it is given, and changes no other,
-- however it ends; and it gives what the loading gives that makes new tables instead of changing
-- one.
import Peephole.Proofs.Catalog.Entries

namespace Peephole

open Log

/-! ## Work on tables -/

/-- The tables there are. A table is known by its place, and new ones come last. -/
abbrev Tables := List MemberTable

/-- Work on tables: what it gives and reports, and the tables afterwards, also when it fails. -/
def OnTables (α : Type) : Type := Tables → Logged Fault α × Tables

namespace OnTables

variable {α β : Type}

/-- Work that has to do with no table. -/
def of (x : Logged Fault α) : OnTables α := fun ts => (x, ts)

/-- Work that goes on with what other work gives and leaves; it is not done when the other fails. -/
def andThen (x : OnTables α) (f : α → OnTables β) : OnTables β := fun ts =>
  match x ts with
  | (⟨.ok a, records⟩, ts) =>
    let (y, ts) := f a ts
    (⟨y.outcome, records ++ y.records⟩, ts)
  | (⟨.error e, records⟩, ts) => (⟨.error e, records⟩, ts)

instance : Monad OnTables where
  pure a := of (pure a)
  bind := andThen

/-- Makes a table, and gives its place. -/
def make (t : MemberTable) : OnTables Nat := fun ts => (pure ts.length, ts ++ [t])

/-- What the table at a place is at the moment; where there is none it is the empty one. -/
def tableAt (ts : Tables) (place : Nat) : MemberTable := ts.getD place OrderedMap.empty

/-- Reads the table at a place. -/
def read (place : Nat) : OnTables MemberTable := fun ts => (pure (tableAt ts place), ts)

/-- Declares a member in the table at a place. -/
def declareAt (place : Nat) (key : String) (m : Member) : OnTables Unit := fun ts =>
  match (tableAt ts place).add key m with
  | .ok t => (pure (), ts.set place t)
  | .error f => (.of (.error f), ts)

theorem bind_of_ok {x : OnTables α} {ts us : Tables} {a : α} {records : List Record}
    (h : x ts = (⟨.ok a, records⟩, us)) (f : α → OnTables β) :
    (x >>= f) ts = (⟨(f a us).1.outcome, records ++ (f a us).1.records⟩, (f a us).2) := by
  change x.andThen f ts = _
  unfold andThen
  rw [h]

theorem bind_of_error {x : OnTables α} {ts us : Tables} {e : Fault} {records : List Record}
    (h : x ts = (⟨.error e, records⟩, us)) (f : α → OnTables β) :
    (x >>= f) ts = (⟨.error e, records⟩, us) := by
  change x.andThen f ts = _
  unfold andThen
  rw [h]

/-- Two steps that leave the tables leave them together. -/
theorem bind_of_kept {x : OnTables α} {z : Logged Fault α} {f : α → OnTables β}
    {g : α → Logged Fault β} {ts : Tables} (hx : x ts = (z, ts)) (hf : ∀ a, f a ts = (g a, ts)) :
    (x >>= f) ts = (z >>= g, ts) := by
  obtain ⟨outcome, records⟩ := z
  cases outcome with
  | error e => exact bind_of_error hx f
  | ok a =>
    rw [bind_of_ok hx, hf]
    rfl

theorem of_ok_bind (a : α) (f : α → OnTables β) : of (.of (.ok a)) >>= f = f a := by
  funext ts
  exact bind_of_ok rfl f

theorem of_error_bind (e : Fault) (f : α → OnTables β) :
    of (.of (.error e)) >>= f = of (.of (.error e)) := by
  funext ts
  exact bind_of_error rfl f

/-! ## Work on the last table -/

theorem tableAt_last (ts : Tables) (t : MemberTable) : tableAt (ts ++ [t]) ts.length = t := by
  simp [tableAt]

theorem read_last_bind {f : MemberTable → OnTables α} (ts : Tables) (t : MemberTable) :
    (read ts.length >>= f) (ts ++ [t]) = f t (ts ++ [t]) := by
  have hread : read ts.length (ts ++ [t]) = (pure t, ts ++ [t]) := by
    unfold OnTables.read
    rw [tableAt_last]
  exact bind_of_ok hread f

/-- Work that changes the last of some tables as steps on the table alone do, or fails with the
same fault. The tables before it stay in any case. -/
def Changes (x : OnTables Unit) (ts : Tables) (t : MemberTable) : Except Fault MemberTable → Prop
  | .ok u => x (ts ++ [t]) = (pure (), ts ++ [u])
  | .error f => ∃ u, x (ts ++ [t]) = (.of (.error f), ts ++ [u])

variable {ts : Tables} {t : MemberTable}

theorem changes_nothing : (pure () : OnTables Unit).Changes ts t (.ok t) := rfl

theorem changes_congr {x y : OnTables Unit} {u : MemberTable} {r : Except Fault MemberTable}
    (h : x (ts ++ [t]) = y (ts ++ [u])) : x.Changes ts t r ↔ y.Changes ts u r := by
  cases r <;> simp only [Changes, h]

theorem changes_of_step {z : Except Fault α} {f : α → OnTables Unit}
    {g : α → Except Fault MemberTable} (h : ∀ a, (f a).Changes ts t (g a)) :
    (of (.of z) >>= f).Changes ts t (z >>= g) := by
  cases z with
  | error e =>
    rw [of_error_bind]
    exact ⟨t, rfl⟩
  | ok a =>
    rw [of_ok_bind]
    exact h a

theorem Changes.andThen {x y : OnTables Unit} {r : Except Fault MemberTable}
    {g : MemberTable → Except Fault MemberTable} (hx : x.Changes ts t r)
    (hy : ∀ u, y.Changes ts u (g u)) : (x >>= fun _ => y).Changes ts t (r >>= g) := by
  cases r with
  | error e =>
    obtain ⟨u, hu⟩ := hx
    have hrun : (x >>= fun _ => y) (ts ++ [t]) = (.of (.error e), ts ++ [u]) := bind_of_error hu _
    exact ⟨u, hrun⟩
  | ok u =>
    have hrun : (x >>= fun _ => y) (ts ++ [t]) = y (ts ++ [u]) := bind_of_ok hx _
    exact (changes_congr hrun).mpr (hy u)

theorem changes_declareAt (key : String) (m : Member) :
    (declareAt ts.length key m).Changes ts t (t.add key m) := by
  unfold Changes declareAt
  rw [tableAt_last]
  cases t.add key m with
  | error f => exact ⟨t, rfl⟩
  | ok u => simp

/-! ## Work that leaves what was there -/

/-- Work that gives and reports what work without tables does, and leaves some tables that stand
before all others. -/
def Spares (x : OnTables α) (ts us : Tables) (y : Logged Fault α) : Prop :=
  (x us).1 = y ∧ ts <+: (x us).2

theorem spares_of_step {us : Tables} {z : Except Fault α} {f : α → OnTables β}
    {g : α → Logged Fault β} (hus : ts <+: us) (h : ∀ a, (f a).Spares ts us (g a)) :
    (of (.of z) >>= f).Spares ts us (.of z >>= g) := by
  cases z with
  | error e =>
    rw [of_error_bind]
    exact ⟨rfl, hus⟩
  | ok a =>
    rw [of_ok_bind]
    exact h a

theorem Changes.spares {x : OnTables Unit} {y : OnTables α} {r : Except Fault MemberTable}
    {g : MemberTable → Logged Fault α} (hx : x.Changes ts t r)
    (hy : ∀ u, y (ts ++ [u]) = (g u, ts ++ [u])) :
    (x >>= fun _ => y).Spares ts (ts ++ [t]) (.of r >>= g) := by
  cases r with
  | error e =>
    obtain ⟨u, hu⟩ := hx
    unfold Spares
    rw [bind_of_error hu]
    exact ⟨rfl, List.prefix_append _ _⟩
  | ok u =>
    have hrun : (x >>= fun _ => y) (ts ++ [t]) = y (ts ++ [u]) := bind_of_ok hx _
    unfold Spares
    rw [hrun, hy]
    exact ⟨rfl, List.prefix_append _ _⟩

end OnTables

/-! ## Loading -/

namespace Catalog

open OnTables

/-- Declares the entries of a section in the table at a place. -/
def declareEntries (reader : Json → Except Fault Member) (place : Nat) :
    List (String × Json) → OnTables Unit
  | [] => pure ()
  | e :: rest => do
    let m ← of (.of (reader e.2))
    declareAt place e.1 m
    declareEntries reader place rest

/-- Declares the members of a document in the table at a place, the fields first. -/
def declareSections (place : Nat) (doc : Json) : OnTables Unit := do
  let fields ← of (.of (MemberTable.sectionOf "fields" doc))
  declareEntries (fun x => (FieldRef.ofJson x).map .field) place fields
  let methods ← of (.of (MemberTable.sectionOf "methods" doc))
  declareEntries (fun x => (MethodRef.ofJson x).map .method) place methods

/-- Declares the members that the object of a document has, if it has some. -/
def declareOwn (place : Nat) (obj : Json) : OnTables Unit := do
  match ← of (.of (obj.item? "members")) with
  | some declared => if declared.truthy then declareSections place declared else pure ()
  | none => pure ()

/-- Makes a copy of the table at a place, or an empty table when no place is given. -/
def copyOf : Option Nat → OnTables Nat
  | some place => do make (← read place)
  | none => make OrderedMap.empty

/-- Takes the entries of a document into a catalogue one by one, each read by the table at a place
as it is then. -/
def takeAllBy (place : Nat) (c : Catalog) : List Json → OnTables Catalog
  | [] => pure c
  | x :: rest => do
    let table ← read place
    let entry ← of (.of (Entry.ofJson table x))
    let c ← of (take c entry)
    takeAllBy place c rest

/-- The catalogue in the file at a path, where the table at a place is given. -/
def loadOn (look : Look) (path : Path) (given : Option Nat) : OnTables Catalog :=
  if look.finds path then do
    let doc ← of (.of (look.document path))
    let obj ← of (.of (objectOf path.text doc))
    let place ← copyOf given
    declareOwn place obj
    let entries ← of (.of (do Json.partsOf? (← obj.item? "patches")))
    let c ← takeAllBy place empty entries
    of (Logged.note (loaded path c))
    return c
  else of do
    Logged.note
      ⟨.warning, .catalog, "patch catalogue " ++ path.text ++ " not found, no patches loaded"⟩
    return empty

variable {ts : Tables} {t : MemberTable}

theorem declareEntries_changes (reader : Json → Except Fault Member) (es : List (String × Json)) :
    (declareEntries reader ts.length es).Changes ts t
      (MemberTable.readEntries reader MemberTable.add t es) := by
  induction es generalizing t with
  | nil => exact changes_nothing
  | cons e es ih =>
    unfold MemberTable.readEntries at ih ⊢
    rw [List.foldlM_cons, bind_assoc]
    exact changes_of_step fun m => (changes_declareAt e.1 m).andThen fun u => ih

theorem declareSections_changes (doc : Json) :
    (declareSections ts.length doc).Changes ts t (t.declare doc) := by
  unfold declareSections MemberTable.declare MemberTable.readSections
  refine changes_of_step fun fields => (declareEntries_changes _ fields).andThen fun u => ?_
  exact changes_of_step fun methods => declareEntries_changes _ methods

theorem declareOwn_changes (given : Option MemberTable) (obj : Json) :
    (declareOwn ts.length obj).Changes ts (given.getD OrderedMap.empty) (membersOf given obj) := by
  unfold declareOwn membersOf
  refine changes_of_step fun declared => ?_
  cases declared with
  | none => exact changes_nothing
  | some declared =>
    simp only
    split
    · exact declareSections_changes declared
    · exact changes_nothing

/-- Reading leaves the table as it is, so that each entry is read by the same one. -/
theorem takeAllBy_eq (c : Catalog) (xs : List Json) :
    takeAllBy ts.length c xs (ts ++ [t]) = (takeAll t c xs, ts ++ [t]) := by
  induction xs generalizing c with
  | nil => rfl
  | cons x xs ih =>
    rw [takeAllBy, read_last_bind, takeAll]
    exact bind_of_kept rfl fun entry => bind_of_kept rfl fun c => ih c

theorem copyOf_bind {α : Type} {f : Nat → OnTables α} (given : Option Nat) (ts : Tables) :
    (copyOf given >>= f) ts =
      f ts.length (ts ++ [(given.map (tableAt ts)).getD OrderedMap.empty]) := by
  cases given with
  | none => exact bind_of_ok rfl f
  | some place => exact bind_of_ok rfl f

/-- A loading that changes a table of its own gives and reports what a loading does that changes
none, and leaves all tables that were there before. -/
theorem loadOn_spares (look : Look) (path : Path) (given : Option Nat) (ts : Tables) :
    (loadOn look path given).Spares ts ts (load look path (given.map (tableAt ts))) := by
  unfold loadOn load ofDocument
  split
  · refine spares_of_step List.prefix_rfl fun doc => ?_
    refine spares_of_step List.prefix_rfl fun obj => ?_
    unfold Spares
    rw [copyOf_bind]
    refine (declareOwn_changes (given.map (tableAt ts)) obj).spares fun table => ?_
    refine bind_of_kept rfl fun entries => ?_
    refine bind_of_kept (takeAllBy_eq empty entries) fun c => ?_
    exact bind_of_kept rfl fun _ => rfl
  · exact ⟨rfl, List.prefix_rfl⟩

end Catalog

end Peephole
