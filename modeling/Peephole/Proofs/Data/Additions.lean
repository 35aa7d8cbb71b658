-- Things that are added one after the other, where any may be refused. Of several things those
-- before the first that is refused have been added, and a history of calls leaves what the things
-- taken in it leave. Work in place does the same: what it has done before a fault stays done.

namespace Peephole

/-- A call that adds one thing, or several in order. -/
inductive Addition (α : Type) where
  | one (a : α)
  | several (as : List α)

namespace Addition

variable {σ ε α : Type}

/-- The things that a call is to add. -/
def items : Addition α → List α
  | one a => [a]
  | several as => as

/-! ## Calls and histories -/

section Histories

variable (add : σ → α → Except ε σ)

/-- Adds things in order up to the first that is refused, and gives its fault. -/
def upTo (s : σ) : List α → σ × Option ε
  | [] => (s, none)
  | a :: as =>
    match add s a with
    | .ok s => upTo s as
    | .error f => (s, some f)

/-- The things that are added before one is refused. -/
def taken (s : σ) : List α → List α
  | [] => []
  | a :: as =>
    match add s a with
    | .ok s => a :: taken s as
    | .error _ => []

/-- What a call leaves, and its fault. -/
def perform (s : σ) (x : Addition α) : σ × Option ε := upTo add s x.items

/-- What calls leave that are made one after the other, whatever becomes of each. -/
def run (s : σ) (xs : List (Addition α)) : σ := xs.foldl (fun s x => (perform add s x).1) s

/-- The things that have been added in calls. -/
def takenIn (s : σ) : List (Addition α) → List α
  | [] => []
  | x :: xs => taken add s x.items ++ takenIn (perform add s x).1 xs

/-- The faults of calls. -/
def faults (s : σ) : List (Addition α) → List ε
  | [] => []
  | x :: xs => (perform add s x).2.toList ++ faults (perform add s x).1 xs

end Histories

/-! ## Several things -/

variable {add : σ → α → Except ε σ} {s u : σ} {a : α} {as bs : List α} {f : ε}

theorem upTo_cons_of_ok (h : add s a = .ok u) (as : List α) :
    upTo add s (a :: as) = upTo add u as := by
  rw [upTo, h]

theorem upTo_cons_of_error (h : add s a = .error f) (as : List α) :
    upTo add s (a :: as) = (s, some f) := by
  rw [upTo, h]

theorem upTo_append (h : upTo add s bs = (u, none)) (as : List α) :
    upTo add s (bs ++ as) = upTo add u as := by
  induction bs generalizing s with
  | nil =>
    cases h
    rfl
  | cons b bs ih =>
    cases hb : add s b with
    | ok s' =>
      rw [upTo_cons_of_ok hb] at h
      rw [List.cons_append, upTo_cons_of_ok hb, ih h]
    | error f =>
      rw [upTo_cons_of_error hb] at h
      cases h

/-- What goes through things in this way gives the same. -/
theorem eq_upTo {go : σ → List α → σ × Option ε} (hnil : ∀ s, go s [] = (s, none))
    (hcons : ∀ s a as, go s (a :: as) =
      match add s a with
      | .ok u => go u as
      | .error f => (s, some f)) (s : σ) (as : List α) : go s as = upTo add s as := by
  induction as generalizing s with
  | nil => exact hnil s
  | cons a as ih =>
    rw [hcons, upTo]
    cases add s a with
    | ok u => exact ih u
    | error f => rfl

/-- Where one of several things is refused, those before it have been added. -/
theorem upTo_eq_some (h : upTo add s as = (u, some f)) :
    ∃ before a rest, as = before ++ a :: rest ∧ upTo add s before = (u, none) ∧
      add u a = .error f := by
  induction as generalizing s with
  | nil => cases h
  | cons a as ih =>
    cases ha : add s a with
    | ok s' =>
      rw [upTo_cons_of_ok ha] at h
      obtain ⟨before, b, rest, rfl, hbefore, hb⟩ := ih h
      exact ⟨a :: before, b, rest, rfl, by rw [upTo_cons_of_ok ha, hbefore], hb⟩
    | error g =>
      rw [upTo_cons_of_error ha] at h
      cases h
      exact ⟨[], a, as, rfl, rfl, ha⟩

/-- What is added before a fault is added without one. -/
theorem upTo_taken (s : σ) (as : List α) :
    upTo add s (taken add s as) = ((upTo add s as).1, none) := by
  induction as generalizing s with
  | nil => rfl
  | cons a as ih =>
    cases ha : add s a with
    | ok s' => rw [taken, ha, upTo_cons_of_ok ha, upTo_cons_of_ok ha, ih]
    | error f =>
      rw [taken, ha, upTo_cons_of_error ha]
      rfl

/-- Adding things in a run that ends with its first fault. -/
theorem foldlM_eq_upTo (add : σ → α → Except ε σ) (s : σ) (as : List α) :
    as.foldlM add s =
      match upTo add s as with
      | (u, none) => .ok u
      | (_, some f) => .error f := by
  induction as generalizing s with
  | nil => rfl
  | cons a as ih =>
    rw [List.foldlM_cons, upTo]
    cases add s a with
    | ok u => exact ih u
    | error f => rfl

/-! ## Histories -/

theorem run_append (s : σ) (xs ys : List (Addition α)) :
    run add s (xs ++ ys) = run add (run add s xs) ys := List.foldl_append

/-- A history leaves what the things taken in it leave when they are added alone. -/
theorem upTo_takenIn (s : σ) (xs : List (Addition α)) :
    upTo add s (takenIn add s xs) = (run add s xs, none) := by
  induction xs generalizing s with
  | nil => rfl
  | cons x xs ih =>
    rw [takenIn, upTo_append (upTo_taken s x.items)]
    exact ih _

/-- Several things are all added exactly when each is in a call of its own, and with the same
result. -/
theorem upTo_eq_none_iff :
    upTo add s as = (u, none) ↔ faults add s (as.map one) = [] ∧ run add s (as.map one) = u := by
  induction as generalizing s with
  | nil => simp [upTo, faults, run]
  | cons a as ih =>
    cases ha : add s a with
    | ok s' =>
      have hfirst : perform add s (one a) = (s', none) := upTo_cons_of_ok ha []
      rw [List.map_cons, faults, run, List.foldl_cons, hfirst, upTo_cons_of_ok ha]
      exact ih
    | error f =>
      -- The fault of the first call is there, whatever the calls behind it do.
      have hfirst : perform add s (one a) = (s, some f) := upTo_cons_of_error ha []
      rw [List.map_cons, faults, hfirst, upTo_cons_of_error ha]
      simp

end Addition

/-! ## Work in place -/

/-- Work on a state that is changed in place. It may have a fault, and what it has done by then
stays done. -/
abbrev InPlace (σ ε : Type) := ExceptT ε (StateM σ)

namespace InPlace

variable {σ ε : Type}

/-- What work leaves, and its fault. -/
def outcome (work : InPlace σ ε Unit) (s : σ) : σ × Option ε :=
  match work.run.run s with
  | (.ok _, s) => (s, none)
  | (.error f, s) => (s, some f)

theorem outcome_get (next : σ → InPlace σ ε Unit) (s : σ) :
    outcome (get >>= next) s = outcome (next s) s := rfl

theorem outcome_modify (g : σ → σ) (s : σ) :
    outcome (modify g : InPlace σ ε Unit) s = (g s, none) := rfl

theorem outcome_throw (f : ε) (s : σ) :
    outcome (throw f : InPlace σ ε Unit) s = (s, some f) := rfl

/-- Work that comes after other work is done unless that has a fault. -/
theorem outcome_bind (first : InPlace σ ε Unit) (second : Unit → InPlace σ ε Unit) (s : σ) :
    outcome (first >>= second) s =
      match outcome first s with
      | (u, none) => outcome (second ()) u
      | (u, some f) => (u, some f) := by
  unfold outcome
  rw [ExceptT.run_bind, StateT.run_bind]
  obtain ⟨result, u⟩ := first.run.run s
  cases result <;> rfl

end InPlace

namespace Addition

variable {σ τ ε α : Type}

/-- Work in place does what adding a thing does, where states are kept in some form: a thing that is
refused leaves the state as it is. -/
def Implements (form : σ → τ) (add : σ → α → Except ε σ) (put : α → InPlace τ ε Unit) : Prop :=
  ∀ s a, (put a).outcome (form s) =
    match add s a with
    | .ok u => (form u, none)
    | .error f => (form s, some f)

/-- A call, made in place. -/
def inPlace (put : α → InPlace τ ε Unit) : Addition α → InPlace τ ε Unit
  | one a => put a
  | several as => do
    for a in as do
      put a

/-- What calls in place leave, whatever becomes of each. -/
def runInPlace (put : α → InPlace τ ε Unit) (r : τ) (xs : List (Addition α)) : τ :=
  xs.foldl (fun r x => ((x.inPlace put).outcome r).1) r

variable {form : σ → τ} {add : σ → α → Except ε σ} {put : α → InPlace τ ε Unit}

theorem outcome_several (h : Implements form add put) (s : σ) (as : List α) :
    ((several as).inPlace put).outcome (form s) =
      (form (upTo add s as).1, (upTo add s as).2) := by
  induction as generalizing s with
  | nil => rfl
  | cons a as ih =>
    have hloop : (several (a :: as)).inPlace put = put a >>= fun _ => (several as).inPlace put := by
      simp [inPlace]
    rw [hloop, InPlace.outcome_bind, h s a]
    cases ha : add s a with
    | ok u =>
      rw [upTo_cons_of_ok ha]
      exact ih u
    | error f => rw [upTo_cons_of_error ha]

/-- A call in place does what the call does. -/
theorem outcome_inPlace (h : Implements form add put) (s : σ) (x : Addition α) :
    (x.inPlace put).outcome (form s) = (form (perform add s x).1, (perform add s x).2) := by
  cases x with
  | one a =>
    refine (h s a).trans ?_
    rw [perform, items, upTo]
    cases add s a <;> rfl
  | several as => exact outcome_several h s as

/-- Calls in place leave what the calls leave. -/
theorem runInPlace_eq (h : Implements form add put) (s : σ) (xs : List (Addition α)) :
    runInPlace put (form s) xs = form (run add s xs) := by
  induction xs generalizing s with
  | nil => rfl
  | cons x xs ih =>
    rw [runInPlace, List.foldl_cons, outcome_inPlace h s x]
    exact ih _

end Addition

end Peephole
