-- Scanning a body for a pattern, from left to right. The first match is found, or all
-- matches that do not overlap the one found before.
import Peephole.Log
import Peephole.Pattern.Basic
import Peephole.Window

namespace Peephole

/-- Why a scan is refused. -/
inductive ScanFault where
  | negativeStart

/-- The wording of a refusal. -/
def ScanFault.message : ScanFault → String
  | negativeStart => "start_at must be non-negative"

namespace Body

/-- The least index, not before a start, from which the pattern holds. -/
def firstMatch? (b : Body) (p : Pattern) (start : Nat) : Option Nat :=
  (List.range' start (b.length + 1 - p.length - start)).find? fun k : Nat => p.matchesAt b k

/-- The first match at an index or after it. -/
def scanFrom (b : Body) (p : Pattern) (start : Nat) : Option Window :=
  (b.firstMatch? p start).map fun k : Nat => ⟨k, p.length⟩

/-- A match that is found stands where the pattern holds, not before the start. -/
theorem scanFrom_eq_some {b : Body} {p : Pattern} {start : Nat} {w : Window}
    (h : b.scanFrom p start = some w) :
    ∃ k : Nat, start ≤ k ∧ w = ⟨k, p.length⟩ ∧ p.matchesAt b k = true := by
  unfold scanFrom at h
  obtain ⟨k, hk, rfl⟩ := Option.map_eq_some_iff.mp h
  have hm := List.mem_of_find?_eq_some hk
  rw [List.mem_range'_1] at hm
  exact ⟨k, hm.1, rfl, by simpa using List.find?_some hk⟩

/-- The first match in the body. -/
def scan (b : Body) (p : Pattern) : Option Window := b.scanFrom p 0

/-- The first match at an index or after it, the index being any integer. -/
def scanAt (b : Body) (p : Pattern) (start : Int) : Except ScanFault (Option Window) :=
  if start < 0 then .error .negativeStart else .ok (b.scanFrom p start.toNat)

/-- All matches from an index on, each beginning where the one before it stops or later. -/
def scanAllFrom (b : Body) (p : Pattern) (start : Nat) : List Window :=
  match _h : b.scanFrom p start with
  | none => []
  | some w => w :: scanAllFrom b p w.stop.toNat
termination_by b.length - start
decreasing_by
  obtain ⟨k, hk, rfl, hm⟩ := scanFrom_eq_some _h
  have hb := p.bounds_of_matchesAt hm
  have hp := p.length_pos
  simp only [Window.stop]
  omega

/-- All matches in the body. -/
def scanAll (b : Body) (p : Pattern) : List Window := b.scanAllFrom p 0

/-! ## Records -/

/-- What a scan reports. -/
def scanRecord (b : Body) (p : Pattern) : Option Window → Log.Record
  | some w => ⟨.debug, .scanner, p.name ++ " matched at " ++ w.start.repr⟩
  | none => ⟨.debug, .scanner,
      p.name ++ " not found in " ++ b.length.repr ++ " instruction(s)"⟩

/-- What the search for all matches reports: each of them, and that there is no other. -/
def scanAllRecords (b : Body) (p : Pattern) (ws : List Window) : List Log.Record :=
  ws.map (fun w => b.scanRecord p (some w)) ++ [b.scanRecord p none]

end Body

end Peephole
