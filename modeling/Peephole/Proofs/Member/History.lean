-- The history of a table of members. Calls that declare one member or several may be made again and
-- again, and some are refused. A name that has a member keeps it, names stand in the order in which
-- they came, and what is refused leaves no more than the members declared before it.
import Peephole.Proofs.Data.Keys
import Peephole.Proofs.Member.Declarations

namespace Peephole.MemberTable

open Addition

variable {t u : MemberTable} {k : String} {m : Member} {es : List (String × Member)} {f : Fault}

/-! ## In place -/

/-- Declares a member in a table that is changed in place. -/
def addInPlace (e : String × Member) : InPlace MemberTable Fault Unit := do
  match (← get).find? e.1 with
  | some existing =>
    if existing ≠ e.2 then
      throw (.value (.alreadyDeclared e.1 existing))
  | none => pure ()
  modify fun t => t.insert e.1 e.2

theorem addInPlace_implements : Implements id addPair addInPlace := by
  rintro t ⟨k, m⟩
  unfold addInPlace
  rw [InPlace.outcome_get]
  cases hk : t.find? k with
  | none =>
    have hadd : addPair t (k, m) = .ok (t.insert k m) := add_of_same (by simp [hk])
    simp only [id, hk, hadd]
    exact InPlace.outcome_modify _ t
  | some n =>
    by_cases hn : n = m
    · have hadd : addPair t (k, m) = .ok (t.insert k m) := add_of_same (by simp [hk, hn])
      simp only [id, hk, hadd, if_neg (not_not_intro hn)]
      exact InPlace.outcome_modify _ t
    · have hadd : addPair t (k, m) = .error (.value (.alreadyDeclared k n)) := add_of_other hk hn
      simp only [id, hk, hadd, if_pos hn]
      exact InPlace.outcome_throw _ t

/-! ## What has been declared -/

theorem addAll_eq_none_iff :
    t.addAll es = (u, none) ↔ Agree (t.entries ++ es) ∧ u = t.insertAll es := by
  by_cases h : Agree (t.entries ++ es)
  · rw [addAll_of_agree h]
    simp [h, eq_comm]
  · obtain ⟨before, k, m, n, rest, rfl, hbefore, hk, hne⟩ := exists_clash (agree_entries t) h
    rw [addAll_of_clash hbefore hk hne rest]
    simp [h]

theorem find?_insertAll_iff (h : Agree (t.entries ++ es)) :
    (t.insertAll es).find? k = some m ↔ (k, m) ∈ t.entries ++ es :=
  ⟨OrderedMap.mem_of_find?_insertAll, find?_insertAll_of_agree h⟩

/-- The declarations taken in a history agree, and they make the table that it leaves. -/
theorem run_eq_insertAll (t : MemberTable) (calls : List (Addition (String × Member))) :
    Agree (t.entries ++ takenIn addPair t calls) ∧
      run addPair t calls = t.insertAll (takenIn addPair t calls) := by
  rw [← addAll_eq_none_iff, addAll_eq_upTo]
  exact upTo_takenIn t calls

/-- A name keeps its member. -/
theorem find?_run (h : t.find? k = some m) (calls : List (Addition (String × Member))) :
    (run addPair t calls).find? k = some m := by
  obtain ⟨hagree, hrun⟩ := run_eq_insertAll t calls
  rw [hrun, find?_insertAll_iff hagree]
  exact List.mem_append_left _ (OrderedMap.find?_eq_some_iff.mp h)

theorem keys_run (t : MemberTable) (calls : List (Addition (String × Member))) :
    (run addPair t calls).keys =
      (t.keys ++ (takenIn addPair t calls).map Prod.fst).eraseDups := by
  rw [(run_eq_insertAll t calls).2, OrderedMap.keys_insertAll]

/-- Members that agree are all declared when each is declared in a call of its own. -/
theorem run_one_of_agree (h : Agree (t.entries ++ es)) :
    faults addPair t (es.map one) = [] ∧ run addPair t (es.map one) = t.insertAll es := by
  have hall := addAll_of_agree h
  rw [addAll_eq_upTo] at hall
  exact upTo_eq_none_iff.mp hall

theorem faults_eq_nil_iff :
    faults addPair t (es.map one) = [] ↔ Agree (t.entries ++ es) := by
  refine ⟨fun h => ?_, fun h => (run_one_of_agree h).1⟩
  have hall : upTo addPair t es = (run addPair t (es.map one), none) :=
    upTo_eq_none_iff.mpr ⟨h, rfl⟩
  rw [← addAll_eq_upTo] at hall
  exact (addAll_eq_none_iff.mp hall).1

/-! ## Faults -/

/-- A member is refused when its name has another one, and the table stays as it is. -/
theorem perform_one_eq_some (h : perform addPair t (one (k, m)) = (u, some f)) :
    u = t ∧ ∃ n, t.find? k = some n ∧ n ≠ m ∧ f = .value (.alreadyDeclared k n) := by
  by_cases hsame : ∀ n, t.find? k = some n → n = m
  · have hadd : addPair t (k, m) = .ok (t.insert k m) := add_of_same hsame
    rw [perform, items, upTo_cons_of_ok hadd] at h
    cases h
  · obtain ⟨n, hn⟩ := Classical.not_forall.mp hsame
    obtain ⟨hn, hne⟩ := Classical.not_imp.mp hn
    have hadd : addPair t (k, m) = .error (.value (.alreadyDeclared k n)) := add_of_other hn hne
    rw [perform, items, upTo_cons_of_error hadd] at h
    cases h
    exact ⟨rfl, n, hn, hne, rfl⟩

/-- Of several members those before the first that is refused are declared. -/
theorem perform_several_eq_some (h : perform addPair t (several es) = (u, some f)) :
    ∃ before k m n rest, es = before ++ (k, m) :: rest ∧ Agree (t.entries ++ before) ∧
      (k, n) ∈ t.entries ++ before ∧ n ≠ m ∧ f = .value (.alreadyDeclared k n) ∧
      u = t.insertAll before := by
  rw [perform, items, ← addAll_eq_upTo] at h
  have hclash : ¬ Agree (t.entries ++ es) := by
    intro hagree
    rw [addAll_of_agree hagree] at h
    cases h
  obtain ⟨before, k, m, n, rest, rfl, hbefore, hk, hne⟩ := exists_clash (agree_entries t) hclash
  rw [addAll_of_clash hbefore hk hne rest] at h
  cases h
  exact ⟨before, k, m, n, rest, rfl, hbefore, hk, hne, rfl, rfl⟩

/-! ## The laws -/

/-- Members that have been declared never change, whatever is declared afterwards and whether or not
it is refused: a name keeps its member, and names stand in the order in which they were first
declared. Members declared one by one are all taken exactly when no name is given two of them, the
table counted, and then the order makes no difference to what is bound. One that is refused leaves
the table as it is, and an update that fails leaves it with the members before the one refused. -/
theorem a_declared_member_never_changes (t : MemberTable)
    (calls : List (Addition (String × Member))) :
    let u := run addPair t calls
    (runInPlace addInPlace t calls = u ∧
      (∀ x, (x.inPlace addInPlace).outcome u = perform addPair u x) ∧
      ∀ es, perform addPair u (several es) = u.addAll es) ∧
    (∀ later k m, u.find? k = some m → (run addPair t (calls ++ later)).find? k = some m) ∧
    (u.keys = (t.keys ++ (takenIn addPair t calls).map Prod.fst).eraseDups ∧
      ∀ k m, u.find? k = some m ↔ (k, m) ∈ t.entries ++ takenIn addPair t calls) ∧
    (∀ es, faults addPair u (es.map one) = [] ↔ Agree (u.entries ++ es)) ∧
    (∀ es fs : List (String × Member), Agree (u.entries ++ es) → fs.Perm es →
      faults addPair u (fs.map one) = [] ∧
      ∀ k m, (run addPair u (fs.map one)).find? k = some m ↔ (k, m) ∈ u.entries ++ es) ∧
    (∀ k m w f, perform addPair u (one (k, m)) = (w, some f) →
      w = u ∧ ∃ n, u.find? k = some n ∧ n ≠ m ∧ f = .value (.alreadyDeclared k n)) ∧
    (∀ es w f, perform addPair u (several es) = (w, some f) →
      ∃ before k m n rest, es = before ++ (k, m) :: rest ∧ Agree (u.entries ++ before) ∧
        (k, n) ∈ u.entries ++ before ∧ n ≠ m ∧ f = .value (.alreadyDeclared k n) ∧
        ∀ j b, w.find? j = some b ↔ (j, b) ∈ u.entries ++ before) := by
  intro u
  refine ⟨⟨?_, ?_, ?_⟩, ?_, ⟨?_, ?_⟩, ?_, ?_, ?_, ?_⟩
  · exact runInPlace_eq addInPlace_implements t calls
  · exact outcome_inPlace addInPlace_implements u
  · intro es
    exact (addAll_eq_upTo u es).symm
  · intro later k m hk
    rw [run_append]
    exact find?_run hk later
  · exact keys_run t calls
  · intro k m
    obtain ⟨hagree, hrun⟩ := run_eq_insertAll t calls
    change (run addPair t calls).find? k = some m ↔ _
    rw [hrun, find?_insertAll_iff hagree]
  · intro es
    exact faults_eq_nil_iff
  · intro es fs hagree hperm
    have hperm : (u.entries ++ fs).Perm (u.entries ++ es) := hperm.append_left _
    have hfs : Agree (u.entries ++ fs) := hagree.subset hperm.subset
    obtain ⟨hnone, hrun⟩ := run_one_of_agree hfs
    refine ⟨hnone, ?_⟩
    intro k m
    rw [hrun, find?_insertAll_iff hfs, hperm.mem_iff]
  · intro k m w f hrefused
    exact perform_one_eq_some hrefused
  · intro es w f hrefused
    obtain ⟨before, k, m, n, rest, hes, hbefore, hk, hne, hf, rfl⟩ :=
      perform_several_eq_some hrefused
    exact ⟨before, k, m, n, rest, hes, hbefore, hk, hne, hf, fun j b => find?_insertAll_iff hbefore⟩

/-- An update that stops half way, and a member that is declared again. -/
theorem an_update_that_stops_half_way :
    let x := Member.field ⟨"Store", "x", "int", true⟩
    let y := Member.field ⟨"Store", "y", "int", true⟩
    let u := run addPair (OrderedMap.ofList [("first", x)])
      [several [("second", y), ("first", y), ("third", x)], one ("first", x)]
    u.keys = ["first", "second"] ∧ u.find? "first" = some x ∧ u.find? "second" = some y := by
  intro x y u
  obtain ⟨-, -, ⟨hkeys, hfind⟩, -⟩ :=
    a_declared_member_never_changes (OrderedMap.ofList [("first", x)])
      [several [("second", y), ("first", y), ("third", x)], one ("first", x)]
  refine ⟨?_, ?_, ?_⟩
  · rw [hkeys]
    rfl
  · rw [hfind]
    decide
  · rw [hfind]
    decide

end Peephole.MemberTable
