-- Loading. The steps of work that reports come one after the other, and a document that is found
-- is the value that its text was read as.
import Peephole.Files.Disk
import Peephole.Log
import Peephole.Proofs.Data.Results

namespace Peephole

/-! ## Work that reports -/

namespace Log.Logged

variable {ε α β : Type} {x : Logged ε α}

/-- The records of a step stand before those of the next. -/
theorem bind_of_ok {a : α} (h : x.outcome = .ok a) (f : α → Logged ε β) :
    x >>= f = ⟨(f a).outcome, x.records ++ (f a).records⟩ := by
  change x.andThen f = _
  unfold andThen
  rw [h]

theorem outcome_bind {a : α} (h : x.outcome = .ok a) (f : α → Logged ε β) :
    (x >>= f).outcome = (f a).outcome := by
  rw [bind_of_ok h]

/-- After a step that fails there is no other. -/
theorem bind_of_error {e : ε} (h : x.outcome = .error e) (f : α → Logged ε β) :
    x >>= f = ⟨.error e, x.records⟩ := by
  change x.andThen f = _
  unfold andThen
  rw [h]

theorem outcome_bind_eq_ok {f : α → Logged ε β} {b : β} (h : (x >>= f).outcome = .ok b) :
    ∃ a, x.outcome = .ok a ∧ (f a).outcome = .ok b := by
  cases hx : x.outcome with
  | error e =>
    rw [bind_of_error hx] at h
    cases h
  | ok a =>
    rw [outcome_bind hx] at h
    exact ⟨a, rfl, h⟩

end Log.Logged

/-! ## Documents -/

theorem finds_of_document {look : Look} {path : Path} {doc : Json}
    (h : look.document path = .ok doc) : look.finds path = true := by
  obtain ⟨text, htext, _⟩ := ok_of_bind h
  unfold Look.finds
  rw [ok_of_mapError htext]

theorem document_of_parse {look : Look} {path : Path} {text : String} {doc : Json}
    (hlook : look path = .ok text) (hparse : Json.parse text = some doc) :
    look.document path = .ok doc := by
  unfold Look.document
  simp only [hlook, hparse, Except.mapError, bind, Except.bind]

end Peephole
