-- Stores of bodies that are written and loaded again. The method of a body is written in one line,
-- and a store survives exactly when each of its methods can be told from its line.
import Peephole.BodyStore.Load
import Peephole.Json.Writer
import Peephole.Proofs.Files.Loading
import Peephole.Proofs.Instruction.Written
import Peephole.Proofs.Json.Identity
import Peephole.Proofs.Selector.Key

namespace Peephole

/-! ## Methods -/

theorem Selector.ofJson_toJson_eq_ok_iff {s t : Selector} :
    ofJson s.toJson = .ok t ↔ parse s.key = some t := ofJson_str_eq_ok_iff

/-- A selector that is given by a text is well formed. -/
theorem Selector.wellFormed_of_ofJson {t : String} {s : Selector} (h : ofJson (.str t) = .ok s) :
    s.WellFormed := wellFormed_of_parse (ofJson_str_eq_ok_iff.mp h)

namespace BodyStore

/-! ## Entries -/

/-- The method and the body that an entry gives. -/
def readEntry (table : Option MemberTable) (x : Json) : Except Fault (Selector × Body) := do
  let target ← Selector.ofJson (← x.item "target")
  return (target, ← Body.ofJson? table (← x.item? "body"))

/-- The entry that a method and its body are written as. -/
def writeEntry (e : Selector × Body) : Json :=
  .obj [("target", e.1.toJson), ("body", e.2.toJson)]

/-- What an entry is read as once it is written: the body is kept, and the method is what its line
is read as. -/
def Rereads (e e' : Selector × Body) : Prop := Selector.parse e.1.key = some e'.1 ∧ e'.2 = e.2

theorem readEntry_writeEntry_iff {table : Option MemberTable} {e e' : Selector × Body} :
    readEntry table (writeEntry e) = .ok e' ↔ Rereads e e' := by
  have hbody : Body.ofJson? table (some e.2.toJson) = .ok e.2 := Body.ofJson_toJson table e.2
  have hentry : readEntry table (writeEntry e) =
      Selector.ofJson e.1.toJson >>= fun target =>
        Body.ofJson? table (some e.2.toJson) >>= fun body => .ok (target, body) := rfl
  unfold Rereads
  rw [hentry, hbody, ← Selector.ofJson_toJson_eq_ok_iff]
  constructor
  · intro h
    obtain ⟨target, htarget, h⟩ := ok_of_bind h
    cases h
    exact ⟨htarget, rfl⟩
  · rintro ⟨htarget, hsame⟩
    rw [htarget, ← hsame]
    rfl

theorem rereads_self_iff {e : Selector × Body} : Rereads e e ↔ e.1.WellFormed := by
  unfold Rereads
  rw [Selector.parse_key_iff, and_iff_left rfl]

theorem target_of_readEntry {table : Option MemberTable} {x : Json} {e : Selector × Body}
    (h : readEntry table x = .ok e) :
    ∃ y, x.item "target" = .ok y ∧ Selector.ofJson y = .ok e.1 := by
  obtain ⟨y, hy, h⟩ := ok_of_bind h
  obtain ⟨target, htarget, h⟩ := ok_of_bind h
  obtain ⟨field, _, h⟩ := ok_of_bind h
  obtain ⟨body, _, h⟩ := ok_of_bind h
  cases h
  exact ⟨y, hy, htarget⟩

/-! ## Documents -/

/-- An entry whose method is new is added when it can be read. -/
theorem addEntry_eq_ok_iff {path : String} {table : Option MemberTable} {m s : BodyStore}
    {x : Json} :
    addEntry path table m x = .ok s ↔
      ∃ e, readEntry table x = .ok e ∧ s.entries = m.entries ++ [e] := by
  unfold addEntry readEntry
  constructor
  · intro h
    obtain ⟨y, hy, h⟩ := ok_of_bind h
    obtain ⟨target, htarget, h⟩ := ok_of_bind h
    split at h
    · cases h
    · rename_i hnew
      rw [OrderedMap.contains_iff] at hnew
      obtain ⟨field, hfield, h⟩ := ok_of_bind h
      obtain ⟨body, hbody, h⟩ := ok_of_bind h
      cases h
      refine ⟨(target, body), ?_, ?_⟩
      · simp only [hy, htarget, hfield, hbody, bind, Except.bind, pure, Except.pure]
      · unfold OrderedMap.insert
        rw [dif_neg hnew]
  · rintro ⟨e, h, hs⟩
    obtain ⟨y, hy, h⟩ := ok_of_bind h
    obtain ⟨target, htarget, h⟩ := ok_of_bind h
    obtain ⟨field, hfield, h⟩ := ok_of_bind h
    obtain ⟨body, hbody, h⟩ := ok_of_bind h
    cases h
    -- The methods of the larger store are distinct, so that this one is not in the smaller.
    have hnew : target ∉ m.keys := by
      have hdistinct := s.distinct
      rw [hs, List.map_append, List.nodup_append] at hdistinct
      exact fun hm => hdistinct.2.2 _ hm _ List.mem_cons_self rfl
    have hcontains : ¬ m.contains target = true := mt (m.contains_iff target).mp hnew
    simp only [hy, htarget, hfield, hbody, bind, Except.bind, pure, Except.pure]
    rw [if_neg hcontains]
    refine congrArg Except.ok (OrderedMap.ext ?_)
    unfold OrderedMap.insert
    rw [dif_neg hnew, hs]

/-- Entries that can be read, with methods that are new and distinct, are added in order. -/
theorem foldlM_addEntry_eq_ok_iff {path : String} {table : Option MemberTable} {m s : BodyStore}
    {xs : List Json} :
    xs.foldlM (addEntry path table) m = .ok s ↔
      ∃ es, xs.mapM (readEntry table) = .ok es ∧ s.entries = m.entries ++ es := by
  induction xs generalizing m with
  | nil =>
    rw [List.foldlM_nil, List.mapM_nil]
    constructor
    · intro h
      cases h
      exact ⟨[], rfl, (List.append_nil _).symm⟩
    · rintro ⟨es, hes, hs⟩
      cases hes
      rw [List.append_nil] at hs
      exact congrArg Except.ok (OrderedMap.ext hs.symm)
  | cons x xs ih =>
    rw [List.foldlM_cons, List.mapM_cons]
    constructor
    · intro h
      obtain ⟨m₁, hm₁, h⟩ := ok_of_bind h
      obtain ⟨e, he, hentries⟩ := addEntry_eq_ok_iff.mp hm₁
      obtain ⟨es, hes, hs⟩ := ih.mp h
      refine ⟨e :: es, ?_, ?_⟩
      · simp only [he, hes, bind, Except.bind, pure, Except.pure]
      · rw [hs, hentries, List.append_assoc, List.singleton_append]
    · rintro ⟨es, h, hs⟩
      obtain ⟨e, he, h⟩ := ok_of_bind h
      obtain ⟨es', hes', h⟩ := ok_of_bind h
      cases h
      have hdistinct := s.distinct
      rw [hs, List.append_cons, List.map_append] at hdistinct
      let m₁ : BodyStore := ⟨m.entries ++ [e], (List.nodup_append.mp hdistinct).1⟩
      have hm₁ : addEntry path table m x = .ok m₁ := addEntry_eq_ok_iff.mpr ⟨e, he, rfl⟩
      rw [hm₁]
      exact ih.mpr ⟨es', hes', by rw [hs, List.append_cons]⟩

/-- A document makes the store of the entries that are read from it. -/
theorem ofDocument_eq_ok_iff {path : String} {table : Option MemberTable} {doc : Json}
    {s : BodyStore} :
    ofDocument path table doc = .ok s ↔
      ∃ xs, entriesOf path doc = .ok xs ∧ xs.mapM (readEntry table) = .ok s.entries := by
  unfold ofDocument
  constructor
  · intro h
    obtain ⟨xs, hxs, h⟩ := ok_of_bind h
    obtain ⟨es, hes, hs⟩ := foldlM_addEntry_eq_ok_iff.mp h
    rw [show s.entries = es from hs]
    exact ⟨xs, hxs, hes⟩
  · rintro ⟨xs, hxs, hes⟩
    rw [hxs]
    exact foldlM_addEntry_eq_ok_iff.mpr ⟨_, hes, rfl⟩

theorem load_eq_ok_iff {look : Look} {path : Path} {table : Option MemberTable} {s : BodyStore} :
    (load look path table).outcome = .ok s ↔
      ∃ doc, look.document path = .ok doc ∧ ofDocument path.text table doc = .ok s := by
  unfold load
  constructor
  · intro h
    obtain ⟨t, ht, h⟩ := Log.Logged.outcome_bind_eq_ok h
    obtain ⟨doc, hdoc, ht⟩ := ok_of_bind (x := look.document path) ht
    cases h
    exact ⟨doc, hdoc, ht⟩
  · rintro ⟨doc, hdoc, hs⟩
    rw [Log.Logged.outcome_bind (a := s)]
    · rfl
    · unfold Log.Logged.of
      rw [hdoc]
      exact hs

/-- What is loaded from the document of a store. -/
theorem load_toJson_eq_ok_iff {look : Look} {path : Path} {table : Option MemberTable}
    {s s' : BodyStore} (hlook : look.document path = .ok s.toJson) :
    (load look path table).outcome = .ok s' ↔ List.Forall₂ Rereads s.entries s'.entries := by
  have hentries : entriesOf path.text s.toJson = .ok (s.entries.map writeEntry) := rfl
  have hmap : (s.entries.map writeEntry).mapM (readEntry table) = .ok s'.entries ↔
      List.Forall₂ Rereads s.entries s'.entries := by
    rw [mapM_eq_ok_iff, List.forall₂_map_left_iff]
    simp only [readEntry_writeEntry_iff]
  rw [load_eq_ok_iff, ← hmap]
  constructor
  · rintro ⟨doc, hdoc, h⟩
    rw [hlook] at hdoc
    cases hdoc
    obtain ⟨xs, hxs, h⟩ := ofDocument_eq_ok_iff.mp h
    rw [hentries] at hxs
    cases hxs
    exact h
  · intro h
    exact ⟨s.toJson, hlook, ofDocument_eq_ok_iff.mpr ⟨_, hentries, h⟩⟩

theorem forall₂_rereads_self_iff {s : BodyStore} :
    List.Forall₂ Rereads s.entries s.entries ↔ ∀ target ∈ s.keys, target.WellFormed := by
  rw [List.forall₂_same]
  simp only [rereads_self_iff, OrderedMap.keys, List.forall_mem_map]

/-- A store whose document can be loaded has no two methods with one line. -/
theorem lines_nodup_of_rereads {es es' : List (Selector × Body)} (h : List.Forall₂ Rereads es es')
    (hdistinct : (es'.map Prod.fst).Nodup) : (es.map fun e => e.1.key).Nodup := by
  have hlines : (es.map fun e => e.1.key).map Selector.parse = (es'.map Prod.fst).map some := by
    clear hdistinct
    induction h with
    | nil => rfl
    | cons he _ ih => rw [List.map_cons, List.map_cons, he.1, ih]; rfl
  refine List.Nodup.of_map Selector.parse ?_
  rw [hlines]
  exact hdistinct.map fun _ _ h => Option.some.inj h

/-! ## The laws -/

/-- A store that was loaded is written and loaded again, by any members or none. What comes of it
has the same bodies, each with the method that the line of its own method is read as, so that the
store survives exactly when each of its methods is well formed. A method that a document gives by
its line is always well formed; only one that is given by its parts may fail to be. -/
theorem a_loaded_store_survives_when_its_methods_are_well_formed {look : Look} {path : Path}
    {table : Option MemberTable} {s : BodyStore} (h : (load look path table).outcome = .ok s) :
    (∀ (look' : Look) (path' : Path) (table' : Option MemberTable),
      look'.document path' = .ok s.toJson →
        (∀ s', (load look' path' table').outcome = .ok s' ↔
          List.Forall₂ Rereads s.entries s'.entries) ∧
        ((load look' path' table').outcome = .ok s ↔ ∀ target ∈ s.keys, target.WellFormed)) ∧
    ∃ doc xs, look.document path = .ok doc ∧ entriesOf path.text doc = .ok xs ∧
      List.Forall₂ (fun target x => (∃ line, x.item "target" = .ok (.str line)) →
        target.WellFormed) s.keys xs := by
  constructor
  · intro look' path' table' hlook
    refine ⟨fun s' => load_toJson_eq_ok_iff hlook, ?_⟩
    rw [load_toJson_eq_ok_iff hlook, forall₂_rereads_self_iff]
  · obtain ⟨doc, hdoc, hs⟩ := load_eq_ok_iff.mp h
    obtain ⟨xs, hxs, hread⟩ := ofDocument_eq_ok_iff.mp hs
    refine ⟨doc, xs, hdoc, hxs, ?_⟩
    unfold OrderedMap.keys
    rw [List.forall₂_map_left_iff]
    refine ((mapM_eq_ok_iff.mp hread).flip).imp ?_
    rintro e x he ⟨line, hline⟩
    obtain ⟨y, hy, htarget⟩ := target_of_readEntry he
    rw [hline] at hy
    cases hy
    exact Selector.wellFormed_of_ofJson htarget

/-- A dump of two methods, one given by its line and one by its parts. -/
theorem a_dump_with_a_line_and_with_parts :
    let s : BodyStore := ⟨[(⟨"T", "m", ["A", "B"]⟩, [⟨.ret, none, [], [], rfl⟩]),
      (.constructor "U" [], [])], by decide⟩
    let look : Look := fun _ => .ok "\x7b\"methods\":[\x7b\"target\":\" T::m(A ,B)\",\"body\":[
      \x7b\"op\":\"RET\"\x7d]\x7d,\x7b\"target\":\x7b\"type\":\"U\",\"name\":\".ctor\"\x7d\x7d]\x7d"
    let look' : Look := fun _ => .ok (Json.document s.toJson)
    (load look ⟨"", ["b"]⟩ none).outcome = .ok s ∧
      (∀ target ∈ s.keys, target.WellFormed) ∧
      (load look' ⟨"", ["c"]⟩ none).outcome = .ok s := by
  intro s look look'
  have hload : (load look ⟨"", ["b"]⟩ none).outcome = .ok s := by
    refine load_eq_ok_iff.mpr ⟨.obj [("methods", .arr [
      .obj [("target", .str " T::m(A ,B)"), ("body", .arr [.obj [("op", .str "RET")]])],
      .obj [("target", .obj [("type", .str "U"), ("name", .str ".ctor")])]])], ?_, rfl⟩
    exact document_of_parse rfl (Json.parse_eq_some_of_chars rfl (by decide +kernel))
  have hwritten : look'.document ⟨"", ["c"]⟩ = .ok s.toJson :=
    document_of_parse rfl (Json.parse_eq_some (by decide +kernel))
  have hwellFormed : ∀ target ∈ s.keys, target.WellFormed := by
    have hkeys : ∀ target ∈ s.keys, Selector.parse target.key = some target := by decide +kernel
    exact fun target htarget => Selector.parse_key_iff.mp (hkeys target htarget)
  obtain ⟨hlaw, _⟩ := a_loaded_store_survives_when_its_methods_are_well_formed hload
  exact ⟨hload, hwellFormed, (hlaw look' ⟨"", ["c"]⟩ none hwritten).2.mpr hwellFormed⟩

/-- A dump of a method that takes a dictionary, given by its parts, and one of two methods whose
lines are alike. Both are loaded. But of the first another method comes back, and the second is
refused. -/
theorem parts_may_be_lost_in_a_line :
    let s : BodyStore := ⟨[(⟨"Cache", "Load", ["Dictionary<string, int>"]⟩, [])], by decide⟩
    let t : BodyStore := ⟨[(⟨"A", "B::m", []⟩, []), (⟨"A::B", "m", []⟩, [])], by decide⟩
    let look : Look := fun _ => .ok "\x7b\"methods\":[\x7b\"target\":\x7b\"type\":\"Cache\",
      \"name\":\"Load\",\"params\":[\"Dictionary<string, int>\"]\x7d\x7d]\x7d"
    let look₂ : Look := fun _ => .ok "\x7b\"methods\":[
      \x7b\"target\":\x7b\"type\":\"A\",\"name\":\"B::m\"\x7d\x7d,
      \x7b\"target\":\x7b\"type\":\"A::B\",\"name\":\"m\"\x7d\x7d]\x7d"
    let look' : Look := fun _ => .ok (Json.document s.toJson)
    let look₂' : Look := fun _ => .ok (Json.document t.toJson)
    ((load look ⟨"", ["b"]⟩ none).outcome = .ok s ∧
      ∃ s', (load look' ⟨"", ["c"]⟩ none).outcome = .ok s' ∧
        s'.keys = [⟨"Cache", "Load", ["Dictionary<string", "int>"]⟩]) ∧
    (load look₂ ⟨"", ["b"]⟩ none).outcome = .ok t ∧
      ∀ t', (load look₂' ⟨"", ["c"]⟩ none).outcome ≠ .ok t' := by
  intro s t look look₂ look' look₂'
  have hwritten : look'.document ⟨"", ["c"]⟩ = .ok s.toJson :=
    document_of_parse rfl (Json.parse_eq_some (by decide +kernel))
  have hwritten₂ : look₂'.document ⟨"", ["c"]⟩ = .ok t.toJson :=
    document_of_parse rfl (Json.parse_eq_some (by decide +kernel))
  refine ⟨⟨?_, ?_⟩, ?_, ?_⟩
  · refine load_eq_ok_iff.mpr ⟨.obj [("methods", .arr [.obj [
      ("target", .obj [("type", .str "Cache"), ("name", .str "Load"),
        ("params", .arr [.str "Dictionary<string, int>"])])]])], ?_, rfl⟩
    exact document_of_parse rfl (Json.parse_eq_some_of_chars rfl (by decide +kernel))
  · let s' : BodyStore := ⟨[(⟨"Cache", "Load", ["Dictionary<string", "int>"]⟩, [])], by decide⟩
    refine ⟨s', (load_toJson_eq_ok_iff hwritten).mpr (.cons ⟨?_, rfl⟩ .nil), rfl⟩
    decide +kernel
  · refine load_eq_ok_iff.mpr ⟨.obj [("methods", .arr [
      .obj [("target", .obj [("type", .str "A"), ("name", .str "B::m")])],
      .obj [("target", .obj [("type", .str "A::B"), ("name", .str "m")])]])], ?_, rfl⟩
    exact document_of_parse rfl (Json.parse_eq_some_of_chars rfl (by decide +kernel))
  · intro t' ht'
    have hlines := lines_nodup_of_rereads ((load_toJson_eq_ok_iff hwritten₂).mp ht') t'.distinct
    exact absurd hlines (by decide)

end BodyStore

end Peephole
