-- Declaring members one after the other. All declarations are taken when they give no name two
-- members, and then the table binds each name to its one member. Otherwise the first declaration
-- that gives a name another member than it has is refused, and those before it have been taken.
import Peephole.Member.Table
import Peephole.Proofs.Data.Additions

namespace Peephole.MemberTable

variable {t u : MemberTable} {k : String} {m n : Member} {es before : List (String × Member)}

/-! ## Declarations that agree -/

/-- No name is given two members. -/
def Agree (es : List (String × Member)) : Prop := ∀ x ∈ es, ∀ y ∈ es, x.1 = y.1 → x.2 = y.2

instance (es : List (String × Member)) : Decidable (Agree es) :=
  inferInstanceAs (Decidable (∀ x ∈ es, ∀ y ∈ es, x.1 = y.1 → x.2 = y.2))

theorem Agree.subset {fs : List (String × Member)} (h : Agree es) (hsub : fs ⊆ es) : Agree fs :=
  fun x hx y hy => h x (hsub hx) y (hsub hy)

theorem agree_entries (t : MemberTable) : Agree t.entries := by
  rintro ⟨k, m⟩ hx ⟨j, n⟩ hy hkey
  change k = j at hkey
  subst hkey
  have hm := OrderedMap.find?_eq_some_iff.mpr hx
  have hn := OrderedMap.find?_eq_some_iff.mpr hy
  exact Option.some.inj (hm.symm.trans hn)

/-- One more declaration agrees with others when they give its name no other member. -/
theorem agree_append_singleton (h : Agree es) (hk : ∀ n, (k, n) ∈ es → n = m) :
    Agree (es ++ [(k, m)]) := by
  rintro ⟨i, a⟩ hx ⟨j, b⟩ hy hkey
  change i = j at hkey
  subst hkey
  rw [List.mem_append, List.mem_singleton] at hx hy
  rcases hx with hx | hx
  · rcases hy with hy | hy
    · exact h _ hx _ hy rfl
    · cases hy
      exact hk a hx
  · cases hx
    rcases hy with hy | hy
    · exact (hk b hy).symm
    · cases hy
      rfl

/-- Where declarations do not agree there is a first one that goes against one before it. -/
theorem exists_clash {base : List (String × Member)} (hbase : Agree base)
    (h : ¬ Agree (base ++ es)) :
    ∃ before k m n rest, es = before ++ (k, m) :: rest ∧ Agree (base ++ before) ∧
      (k, n) ∈ base ++ before ∧ n ≠ m := by
  induction es generalizing base with
  | nil => exact absurd (by rwa [List.append_nil]) h
  | cons e es ih =>
    obtain ⟨k, m⟩ := e
    by_cases hk : ∀ n, (k, n) ∈ base → n = m
    · rw [List.append_cons] at h
      obtain ⟨before, j, m', n, rest, rfl, hbefore, hmem, hne⟩ :=
        ih (agree_append_singleton hbase hk) h
      rw [← List.append_cons] at hbefore hmem
      exact ⟨(k, m) :: before, j, m', n, rest, rfl, hbefore, hmem, hne⟩
    · obtain ⟨n, hn⟩ := Classical.not_forall.mp hk
      obtain ⟨hn, hne⟩ := Classical.not_imp.mp hn
      refine ⟨[], k, m, n, es, rfl, ?_, ?_, hne⟩
      · rwa [List.append_nil]
      · rwa [List.append_nil]

/-! ## One declaration -/

theorem add_of_same (h : ∀ n, t.find? k = some n → n = m) : t.add k m = .ok (t.insert k m) := by
  unfold add
  split
  · rename_i n hn
    rw [if_pos (h n hn)]
  · rfl

theorem add_of_other (h : t.find? k = some n) (hne : n ≠ m) :
    t.add k m = .error (.value (.alreadyDeclared k n)) := by
  unfold add
  rw [h]
  exact if_neg hne

theorem mem_entries_insert {e : String × Member} (h : e ∈ (t.insert k m).entries) :
    e = (k, m) ∨ e ∈ t.entries := by
  obtain ⟨j, n⟩ := e
  rw [← OrderedMap.find?_eq_some_iff, OrderedMap.find?_insert] at h
  split at h
  · rename_i hj
    cases h
    exact .inl (by rw [hj])
  · exact .inr (OrderedMap.find?_eq_some_iff.mp h)

/-! ## Many declarations -/

/-- Declares a member with its name. -/
def addPair (t : MemberTable) (e : String × Member) : Except Fault MemberTable := t.add e.1 e.2

theorem addAll_eq_upTo (t : MemberTable) (es : List (String × Member)) :
    t.addAll es = Addition.upTo addPair t es := by
  refine Addition.eq_upTo (fun _ => rfl) (fun t e es => ?_) t es
  rw [addAll, addPair]
  cases t.add e.1 e.2 <;> rfl

/-- Declarations that agree with one another and with the table are all taken. -/
theorem addAll_of_agree (h : Agree (t.entries ++ es)) : t.addAll es = (t.insertAll es, none) := by
  induction es generalizing t with
  | nil => rfl
  | cons e es ih =>
    obtain ⟨k, m⟩ := e
    have hsame : ∀ n, t.find? k = some n → n = m := by
      intro n hn
      have hmem := OrderedMap.find?_eq_some_iff.mp hn
      exact h (k, n) (List.mem_append_left _ hmem) (k, m) (by simp) rfl
    have hrest : Agree ((t.insert k m).entries ++ es) := by
      refine h.subset fun x hx => ?_
      rcases List.mem_append.mp hx with hx | hx
      · rcases mem_entries_insert hx with rfl | hx
        · simp
        · exact List.mem_append_left _ hx
      · simp [hx]
    unfold addAll
    rw [add_of_same hsame]
    exact ih hrest

/-- The table then binds each name to its member. -/
theorem find?_insertAll_of_agree (h : Agree (t.entries ++ es)) (hk : (k, m) ∈ t.entries ++ es) :
    (t.insertAll es).find? k = some m := by
  rw [OrderedMap.find?_insertAll]
  cases hlast : es.reverse.lookup k with
  | some n =>
    obtain ⟨before, after, hes, -⟩ := List.lookup_eq_some_iff.mp hlast
    have hmem : (k, n) ∈ es := by
      rw [← List.mem_reverse, hes]
      simp
    exact congrArg some (h (k, n) (List.mem_append_right _ hmem) (k, m) hk rfl)
  | none =>
    rw [Option.none_or, OrderedMap.find?_eq_some_iff]
    rcases List.mem_append.mp hk with hk | hk
    · exact hk
    · exfalso
      rw [List.lookup_eq_none_iff] at hlast
      simpa using hlast (k, m) (List.mem_reverse.mpr hk)

theorem addAll_append (h : t.addAll before = (u, none)) (es : List (String × Member)) :
    t.addAll (before ++ es) = u.addAll es := by
  rw [addAll_eq_upTo] at h
  rw [addAll_eq_upTo, addAll_eq_upTo, Addition.upTo_append h]

/-- The first declaration that goes against the table or a declaration before it is refused. -/
theorem addAll_of_clash (h : Agree (t.entries ++ before)) (hk : (k, n) ∈ t.entries ++ before)
    (hne : n ≠ m) (rest : List (String × Member)) :
    t.addAll (before ++ (k, m) :: rest) =
      (t.insertAll before, some (.value (.alreadyDeclared k n))) := by
  rw [addAll_append (addAll_of_agree h), addAll,
    add_of_other (find?_insertAll_of_agree h hk) hne]

/-- Declaring members in a fallible run is declaring them all, or the fault of the first that is
refused. -/
theorem foldlM_add (t : MemberTable) (es : List (String × Member)) :
    es.foldlM (fun t e => t.add e.1 e.2) t =
      match t.addAll es with
      | (u, none) => .ok u
      | (_, some f) => .error f := by
  rw [addAll_eq_upTo]
  refine (Addition.foldlM_eq_upTo addPair t es).trans ?_
  rcases Addition.upTo addPair t es with ⟨u, _ | f⟩ <;> rfl

/-! ## A table of declarations alone -/

theorem addAll_empty_of_agree (h : Agree es) :
    addAll OrderedMap.empty es = (.ofList es, none) :=
  addAll_of_agree (t := OrderedMap.empty) h

/-- Declarations that do not agree are taken up to the first that goes against one before it. -/
theorem addAll_empty_of_clash (h : ¬ Agree es) :
    ∃ before k m n rest, es = before ++ (k, m) :: rest ∧ Agree before ∧ (k, n) ∈ before ∧ n ≠ m ∧
      addAll OrderedMap.empty es =
        (.ofList before, some (.value (.alreadyDeclared k n))) := by
  obtain ⟨before, k, m, n, rest, rfl, hbefore, hk, hne⟩ :=
    exists_clash (agree_entries OrderedMap.empty) h
  exact ⟨before, k, m, n, rest, rfl, hbefore, hk, hne,
    addAll_of_clash (t := OrderedMap.empty) hbefore hk hne rest⟩

end Peephole.MemberTable
