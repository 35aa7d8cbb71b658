-- The patch that comes with the program. It takes out a version in whatever encoding and with
-- whatever value it is loaded, keeps the stack in balance, and cannot be applied to what it
-- made itself.
import Peephole.Catalog.Builtin
import Peephole.Proofs.Patch.Consuming
import Peephole.Proofs.Patch.StackEffect

namespace Peephole

/-! ## Opcodes that a rule lets pass -/

/-- Whether an instruction of an opcode may pass a rule. -/
def Rule.admits (op : Opcode) : Rule → Bool
  | exact op' _ => op == op'
  | anyOf classes _ => classes.members.contains op.encoding

theorem Rule.admits_of_holds {r : Rule} {i : Instruction} (h : r.holds i = true) :
    r.admits i.opcode = true := by
  cases r with
  | exact op operand => exact beq_iff_eq.mpr (exact_holds_iff.mp h).1
  | anyOf classes condition =>
    unfold holds at h
    exact (Bool.and_eq_true_iff.mp h).1

/-! ## Loads of integer constants -/

theorem Opcode.impliedOperand?_of_loadIntConstant :
    ∀ op : Opcode, op.encoding = .loadIntConstant → op.info.implied.isSome = true →
      Predicate.anyInteger.holds op.impliedOperand? = true := by decide

namespace Instruction

variable {i : Instruction}

theorem operand_of_loadIntConstant (h : i.encoding = .loadIntConstant) :
    i.operand = none ∨ ∃ c, i.operand = some (.constant c) := by
  have haccepted := i.accepted
  cases ho : i.operand with
  | none => exact .inl rfl
  | some o =>
    rw [ho, Opcode.check_some_eq_ok_iff, Opcode.shape_of_loadIntConstant _ h,
      Opcode.fitsShape_integer] at haccepted
    obtain ⟨⟨c, rfl⟩, _⟩ := haccepted
    exact .inr ⟨c, rfl⟩

theorem branchTarget?_of_loadIntConstant (h : i.encoding = .loadIntConstant) :
    i.branchTarget? = none := by
  unfold branchTarget?
  rcases operand_of_loadIntConstant h with ho | ⟨c, ho⟩ <;> rw [ho]

/-- Any load of an integer constant passes the rule for all of them. -/
theorem anyConstant_holds (h : i.encoding = .loadIntConstant) :
    (Rule.anyConstant none).holds i = true := by
  refine Rule.anyOf_singleton_holds_iff.mpr ⟨h, ?_⟩
  unfold logicalOperand?
  rcases operand_of_loadIntConstant h with ho | ⟨c, ho⟩
  · have haccepted := i.accepted
    rw [ho, Opcode.check_none_eq_ok_iff, Opcode.shape_of_loadIntConstant _ h] at haccepted
    rw [ho, Option.none_or]
    exact Opcode.impliedOperand?_of_loadIntConstant _ h (haccepted.resolve_left (by decide))
  · rw [ho]
    rfl

end Instruction

/-! ## Offsets that are integers -/

theorem Pattern.matchesAt_int_iff {p : Pattern} {b : Body} {k : Int} :
    p.matchesAt b k = true ↔ ∃ o : Nat, k = o ∧ p.FitsAt b o := by
  constructor
  · intro h
    obtain ⟨o, rfl⟩ := Int.eq_ofNat_of_zero_le (p.bounds_of_matchesAt h).1
    exact ⟨o, rfl, matchesAt_iff.mp h⟩
  · rintro ⟨o, rfl, h⟩
    exact matchesAt_iff.mpr h

namespace Catalog

/-! ## The patch -/

/-- A patch as it comes with the program. -/
structure IsBlueprints (p : Patch) : Prop where
  rules : p.pattern.rules =
    blueprintsRules blueprintsField intToString (concatOf 3) databaseOpen
  keep : p.keep = 2
  remove : p.remove = 6
  insert : p.insert = [.loadString blueprintsFile, .callOf (concatOf 2)]

variable {p : Patch} {b : Body}

theorem exists_blueprints :
    ∃ p, blueprintsPatch none = .ok p ∧ blueprintsPatch (some builtinMembers) = .ok p ∧
      IsBlueprints p := ⟨_, rfl, rfl, rfl, rfl, rfl, rfl⟩

namespace IsBlueprints

theorem length_eq (hp : IsBlueprints p) : p.pattern.length = 10 := by
  rw [Pattern.length, hp.rules]
  rfl

theorem opensOnce (hp : IsBlueprints p) : p.pattern.OpensOnce := by
  unfold Pattern.OpensOnce
  rw [hp.rules]
  intro first hfirst r hr i hi
  have hadmits : ∀ r ∈ (blueprintsRules blueprintsField intToString (concatOf 3)
      databaseOpen).tail, r.admits .ldsfld = false := by decide
  cases hfirst
  obtain ⟨hop, _⟩ := Rule.exact_holds_iff.mp hi
  by_contra hholds
  have hpasses := Rule.admits_of_holds (by simpa using hholds)
  rw [hop, hadmits r hr] at hpasses
  cases hpasses

theorem consumes (hp : IsBlueprints p) : p.Consumes where
  opens := hp.opensOnce
  removes := by
    rw [hp.remove]
    decide
  inserts := by
    rw [hp.insert]
    exact List.cons_ne_nil _ _
  fresh := by
    rw [hp.insert, hp.rules]
    decide

/-- What is removed leaves the stack as high as it was, and so does what is put in. -/
theorem warnings_eq (hp : IsBlueprints p) (b : Body) : (p.apply b).warnings = [] := by
  have heffects : List.Forall₂ Rule.HasEffect ((p.pattern.rules.drop p.keep).take p.remove)
      [1, -1, 1, 0, 1, -2] := by
    rw [hp.rules, hp.keep, hp.remove]
    exact .cons (Rule.anyOf_singleton_hasEffect (by decide))
      (.cons (Rule.exact_hasEffect (by decide))
      (.cons (Rule.anyOf_singleton_hasEffect (by decide))
      (.cons (Rule.exact_method_hasEffect (by decide))
      (.cons (Rule.exact_hasEffect (by decide))
      (.cons (Rule.exact_method_hasEffect (by decide)) .nil)))))
  refine Patch.warnings_of_effects heffects ?_
  rw [hp.insert]
  rfl

/-- Any two places where the pattern fits are at least ten instructions apart. -/
theorem apart (hp : IsBlueprints p) {k o : Int} (hk : p.pattern.matchesAt b k = true)
    (ho : p.pattern.matchesAt b o = true) (hne : k ≠ o) : 10 ≤ (k - o).natAbs := by
  obtain ⟨k, rfl, hfirst⟩ := Pattern.matchesAt_int_iff.mp hk
  obtain ⟨o, rfl, hother⟩ := Pattern.matchesAt_int_iff.mp ho
  have hlength := hp.length_eq
  rcases Nat.lt_or_gt_of_ne (fun h : k = o => hne (congrArg _ h)) with hlt | hlt
  · have := hp.opensOnce.apart hfirst hother hlt
    omega
  · have := hp.opensOnce.apart hother hfirst hlt
    omega

/-- Where the first match is edited, the later ones move by four and no other match comes up. -/
theorem matchesAt_patched_iff (hp : IsBlueprints p) {w : Nat} (hw : p.pattern.FitsAt b w)
    (hmin : ∀ o < w, ¬ p.pattern.FitsAt b o)
    (hz : ¬ b.Hazardous (w + p.keep) (w + p.keep + p.remove)) {k : Int} :
    p.pattern.matchesAt (p.apply b).patched k = true ↔
      ∃ o : Int, w < o ∧ p.pattern.matchesAt b o = true ∧ k = o - 4 := by
  have hinsert : p.insert.length = 2 := by
    rw [hp.insert]
    rfl
  have hiff : ∀ k, p.pattern.FitsAt (p.apply b).patched k ↔
      ∃ o, w < o ∧ p.pattern.FitsAt b o ∧ k + 6 = o + 2 := by
    intro k
    rw [Patch.patched_of_match hw hmin hz, hp.consumes.fitsAt_splice_iff hw hmin, hp.remove,
      hinsert]
  simp only [Pattern.matchesAt_int_iff, hiff]
  constructor
  · rintro ⟨k, rfl, o, hlt, ho, hk⟩
    exact ⟨o, by omega, ⟨o, rfl, ho⟩, by omega⟩
  · rintro ⟨_, hlt, ⟨o, rfl, ho⟩, rfl⟩
    have hapart := hp.opensOnce.apart hw ho (by omega)
    rw [hp.length_eq] at hapart
    exact ⟨o - 4, by omega, o, by omega, ho, by omega⟩

/-- Whatever load of a constant the version is given by, the result is the same. -/
theorem patched_set_version (hp : IsBlueprints p) {w : Nat} (hw : p.pattern.FitsAt b w)
    (hmin : ∀ o < w, ¬ p.pattern.FitsAt b o)
    (hz : ¬ b.Hazardous (w + p.keep) (w + p.keep + p.remove)) {i j : Instruction}
    (hi : b[w + 2]? = some i) (hj : j.encoding = .loadIntConstant) (hlabels : j.labels = i.labels)
    (hmarkers : j.markers = i.markers) :
    (p.apply (b.set (w + 2) j)).status = .applied ∧
      (p.apply (b.set (w + 2) j)).window? = some ⟨w, 10⟩ ∧
      (p.apply (b.set (w + 2) j)).patched = (p.apply b).patched := by
  have hrule : p.pattern.rules[2]? = some (Rule.anyConstant none) := by
    rw [hp.rules]
    rfl
  have hversion : i.encoding = .loadIntConstant := by
    obtain ⟨x, hx, hholds⟩ := Pattern.fitsAt_iff_forall.mp hw 2 _ hrule
    rw [hi] at hx
    cases hx
    exact (Rule.anyOf_singleton_holds_iff.mp hholds).1
  have hties : j.ties = i.ties := by
    rw [Instruction.ties, Instruction.ties, hlabels, hmarkers,
      Instruction.branchTarget?_of_loadIntConstant hj,
      Instruction.branchTarget?_of_loadIntConstant hversion]
  have hset := Patch.patched_set hp.opensOnce hw hmin hz (n := 2)
    (by rw [hp.keep, hp.remove]; decide) hi hties
    (by rw [hrule]; rintro _ ⟨⟩; exact Instruction.anyConstant_holds hj)
  rwa [hp.length_eq] at hset

end IsBlueprints

/-! ## The laws -/

/-- The matches of the patch that comes with the program lie apart. When it is applied it warns of
nothing, and of the matches just the later ones are left, each where it was less four. The version
in the match may be given by another load of a constant, and the result is the same. So the patch
can be applied to its own result again and again only as often as there are matches, and each time
makes the body shorter by four. -/
theorem the_builtin_patch_uses_up_its_matches :
    ∃ p, blueprintsPatch none = .ok p ∧ blueprintsPatch (some builtinMembers) = .ok p ∧
      ∀ b : Body,
        (∀ k o : Int, p.pattern.matchesAt b k = true → p.pattern.matchesAt b o = true → k ≠ o →
          10 ≤ (k - o).natAbs) ∧
        ((p.apply b).status = .applied → ∃ w : Nat,
          (p.apply b).window? = some ⟨w, 10⟩ ∧ (p.apply b).warnings = [] ∧
          (p.apply b).patched.length + 4 = b.length ∧
          (∀ k : Int, p.pattern.matchesAt (p.apply b).patched k = true ↔
            ∃ o : Int, w < o ∧ p.pattern.matchesAt b o = true ∧ k = o - 4) ∧
          ∀ i j : Instruction, b[w + 2]? = some i → j.encoding = .loadIntConstant →
            j.labels = i.labels → j.markers = i.markers →
            (p.apply (b.set (w + 2) j)).status = .applied ∧
              (p.apply (b.set (w + 2) j)).window? = some ⟨w, 10⟩ ∧
              (p.apply (b.set (w + 2) j)).patched = (p.apply b).patched) ∧
        (∀ n c, p.Repeats b n c →
          n ≤ (b.offsets p.pattern).length ∧ c.length + 4 * n = b.length) ∧
        ∃ n c, p.Repeats b n c ∧ (p.apply c).status ≠ .applied := by
  obtain ⟨p, hnone, hsome, hp⟩ := exists_blueprints
  have hchange : p.lengthChange = -4 := by
    rw [Patch.lengthChange, hp.insert, hp.remove]
    rfl
  refine ⟨p, hnone, hsome, fun b => ⟨fun k o hk ho => hp.apart hk ho, ?_, ?_, ?_⟩⟩
  · intro hstatus
    have happlied := PatchResult.applied_iff.mpr hstatus
    obtain ⟨w, hw, hmin, hz⟩ := Patch.match_of_applied happlied
    refine ⟨w, ?_, hp.warnings_eq b, ?_, fun k => hp.matchesAt_patched_iff hw hmin hz,
      fun i j => hp.patched_set_version hw hmin hz⟩
    · rw [Patch.apply_of_match hw hmin hz, hp.length_eq]
      rfl
    · have hlength := Patch.length_patched_of_applied happlied
      omega
  · intro n c h
    have hmatches := hp.consumes.length_offsets_of_repeats h
    have hlength := h.length_eq
    rw [hchange] at hlength
    exact ⟨by omega, by omega⟩
  · obtain ⟨n, c, h, hend⟩ := hp.consumes.exists_repeats_end b
    refine ⟨n, c, h, fun hstatus => ?_⟩
    rw [PatchResult.applied_iff.mpr hstatus] at hend
    cases hend

/-- The version 16 is taken out of a body of eleven instructions, and seven are left. -/
example :
    let b : Body :=
      [⟨.ldsfld, some (.field blueprintsField), [], [], rfl⟩, ⟨.ldloc1, none, [], [], rfl⟩,
        ⟨.ldcI4S, some (.constant ⟨16, by decide⟩), [], [], rfl⟩, ⟨.stloc2, none, [], [], rfl⟩,
        ⟨.ldlocaS, some (.slot ⟨2, by decide⟩), [], [], rfl⟩, .callOf intToString,
        .loadString ".db", .callOf (concatOf 3), ⟨.ldcI41, none, [], [], rfl⟩,
        ⟨.callvirt, some (.method databaseOpen), [], [], rfl⟩, ⟨.ret, none, [], [], rfl⟩]
    (blueprintsPatch none).map (fun p => ((p.apply b).status, (p.apply b).patched.length)) =
      .ok (.applied, 7) := rfl

end Catalog

end Peephole
