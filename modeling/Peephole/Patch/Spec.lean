-- Patches. A patch names a method and a pattern to look for in its body. Of a match
-- the first instructions are kept, the next are removed, and others are put in their
-- place.
import Peephole.Fault
import Peephole.Pattern.Basic

namespace Peephole

/-- One edit of one body. What is kept and removed lies within the pattern. -/
structure Patch where
  name : String
  target : Selector
  pattern : Pattern
  keep : Nat
  remove : Nat
  insert : Body
  named : name ≠ ""
  fits : keep + remove ≤ pattern.length

namespace Patch

/-- Puts a patch together, unless it has no name or its counts do not fit the pattern. -/
def make (name : String) (target : Selector) (pattern : Pattern) (keep remove : Int)
    (insert : Body) : Except ValueFault Patch :=
  if h : name = "" then .error .namelessPatch
  else if h₀ : keep < 0 ∨ remove < 0 then .error (.negativeCount name)
  else if h₁ : (pattern.length : Int) < keep + remove then
    .error (.countsExceedPattern name keep remove pattern.length)
  else .ok ⟨name, target, pattern, keep.toNat, remove.toNat, insert, h, by omega⟩

/-- How many instructions longer a body becomes. -/
def lengthChange (p : Patch) : Int := p.insert.length - p.remove

/-- A patch in words. -/
def describe (p : Patch) : String :=
  p.name ++ " -> " ++ p.target.key ++ " keep=" ++ p.keep.repr ++ " remove=" ++ p.remove.repr ++
    " insert=" ++ p.insert.length.repr

/-- Equal patches have equal parts. -/
instance : BEq Patch :=
  ⟨fun p q => p.name == q.name && p.target == q.target && p.pattern == q.pattern &&
    p.keep == q.keep && p.remove == q.remove && p.insert == q.insert⟩

end Patch

end Peephole
