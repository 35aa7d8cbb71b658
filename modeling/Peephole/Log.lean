-- Log records. Work that has something to report gives its records beside its
-- result, in the order in which they arose. Work that fails still gives those that
-- arose before.

namespace Peephole.Log

/-- How important a record is. -/
inductive Level where
  | debug | info | warning
  deriving DecidableEq

/-- The name of a level. -/
def Level.name : Level → String
  | debug => "DEBUG"
  | info => "INFO"
  | warning => "WARNING"

/-- Levels by weight. -/
def Level.weight : Level → Nat
  | debug => 0
  | info => 1
  | warning => 2

/-- The part of the program that speaks. -/
inductive Source where
  | members | catalog | bodies | scanner | patching
  deriving DecidableEq

/-- The name under which a part of the program speaks. -/
def Source.name : Source → String
  | members => "ilpatch.members"
  | catalog => "ilpatch.catalog"
  | bodies => "ilpatch.provider"
  | scanner => "ilpatch.scanner"
  | patching => "ilpatch.patching"

/-- A record. -/
structure Record where
  level : Level
  source : Source
  message : String
  deriving DecidableEq

/-- A record as a line. -/
def Record.line (r : Record) : String :=
  r.level.name ++ " " ++ r.source.name ++ ": " ++ r.message

/-! ## Work that reports -/

/-- What some work gives, or why it failed, and the records that arose. -/
structure Logged (ε α : Type) where
  outcome : Except ε α
  records : List Record

namespace Logged

variable {ε α β : Type}

/-- Work that has nothing to report. -/
def of (outcome : Except ε α) : Logged ε α := ⟨outcome, []⟩

/-- A record alone. -/
def note (r : Record) : Logged ε Unit := ⟨.ok (), [r]⟩

/-- Work that goes on with what other work gives; it is not done when the other fails. -/
def andThen (x : Logged ε α) (f : α → Logged ε β) : Logged ε β :=
  match x.outcome with
  | .ok a => ⟨(f a).outcome, x.records ++ (f a).records⟩
  | .error e => ⟨.error e, x.records⟩

instance : Monad (Logged ε) where
  pure a := of (.ok a)
  bind := andThen

/-- The same work with its failures renamed. -/
def mapError {δ : Type} (f : ε → δ) (x : Logged ε α) : Logged δ α := ⟨x.outcome.mapError f, x.records⟩

end Logged

end Peephole.Log
