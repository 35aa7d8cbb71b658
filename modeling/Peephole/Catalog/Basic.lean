-- Catalogues of patches. No two patches of a catalogue have the same name, since it is
-- by name that a patch is known to be done.
import Peephole.Patch.Document

namespace Peephole

/-- Patches in order, and what stands for the entries that could not be read. -/
structure Catalog where
  patches : List Patch
  distinct : (patches.map Patch.name).Nodup
  rejected : List Json

namespace Catalog

/-- The catalogue that holds nothing. -/
def empty : Catalog := ⟨[], List.nodup_nil, []⟩

/-- How many patches a catalogue has. -/
def size (c : Catalog) : Nat := c.patches.length

/-- The names of the patches. -/
def names (c : Catalog) : List String := c.patches.map Patch.name

/-- The patch of a name. -/
def byName? (c : Catalog) (name : String) : Option Patch :=
  c.patches.find? fun p => p.name == name

/-- Adds a patch, unless one of its name is there. -/
def add (c : Catalog) (p : Patch) : Except Fault Catalog :=
  if h : p.name ∈ c.patches.map Patch.name then .error (.value (.duplicatePatch p.name))
  else .ok {
    patches := c.patches ++ [p]
    distinct := by
      rw [List.map_append, List.map_singleton, List.nodup_append]
      refine ⟨c.distinct, List.pairwise_singleton _ _, ?_⟩
      intro a ha b hb hab
      rw [List.mem_singleton] at hb
      exact h (hb ▸ hab ▸ ha)
    rejected := c.rejected }

/-- Adds patches in order up to the first that is refused, and gives its fault. -/
def addAll (c : Catalog) : List Patch → Catalog × Option Fault
  | [] => (c, none)
  | p :: rest =>
    match c.add p with
    | .ok c => addAll c rest
    | .error f => (c, some f)

/-- Adds patches in order, all of them or none. -/
def extend (c : Catalog) (ps : List Patch) : Except Fault Catalog := ps.foldlM add c

/-- Notes an entry that could not be read. -/
def reject (c : Catalog) (name : Json) : Catalog := { c with rejected := c.rejected ++ [name] }

/-- A catalogue as a document, if its patches can be written. -/
def toJson (c : Catalog) : Except RuleFault Json := do
  return .obj [("patches", .arr (← c.patches.mapM Patch.toJson))]

end Catalog

end Peephole
