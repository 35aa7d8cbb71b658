-- Patterns: rules for instructions that stand one after the other.
import Peephole.Body.Basic
import Peephole.Pattern.Rule

namespace Peephole

/-- A name and one rule for each instruction of a window; there is at least one. -/
structure Pattern where
  name : String
  rules : List Rule
  nonempty : rules ≠ []

namespace Pattern

/-- The pattern of a name and rules, if there are rules. -/
def ofRules? (name : String) (rules : List Rule) : Option Pattern :=
  if h : rules = [] then none else some ⟨name, rules, h⟩

/-- How many instructions a match has. -/
def length (p : Pattern) : Nat := p.rules.length

theorem length_pos (p : Pattern) : 0 < p.length := List.length_pos_iff.mpr p.nonempty

/-- Whether the instructions from an index on pass the rules one by one. -/
def matchesAt (p : Pattern) (b : Body) (offset : Int) : Bool :=
  if offset < 0 ∨ (b.length : Int) < offset + p.length then false
  else (p.rules.zip (b.drop offset.toNat)).all fun (r, i) => r.holds i

/-- A match lies inside the body. -/
theorem bounds_of_matchesAt {p : Pattern} {b : Body} {offset : Int}
    (h : p.matchesAt b offset = true) : 0 ≤ offset ∧ offset + p.length ≤ b.length := by
  unfold matchesAt at h
  split at h
  · exact absurd h (by simp)
  · omega

/-- A pattern in words. -/
def describe (p : Pattern) : String :=
  "pattern " ++ p.name ++ " [" ++ ", ".intercalate (p.rules.map Rule.describe) ++ "]"

/-- Equal patterns have the same name and the same rules. -/
instance : BEq Pattern := ⟨fun p q => p.name == q.name && p.rules == q.rules⟩

end Pattern

end Peephole
