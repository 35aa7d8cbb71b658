-- Reports: the results of a run in order, their summary, and their listing.
import Peephole.Body.Listing
import Peephole.Patch.Result

namespace Peephole

/-- The results of a run. -/
structure Report where
  results : List PatchResult

namespace Report

/-- The results of patches that were applied. -/
def applied (r : Report) : List PatchResult := r.results.filter (·.applied)

/-- The results of patches that failed. -/
def failed (r : Report) : List PatchResult := r.results.filter (·.failed)

/-- Whether nothing failed. -/
def ok (r : Report) : Bool := r.failed.isEmpty

/-- The first result of a patch of a name. -/
def byName? (r : Report) (name : String) : Option PatchResult :=
  r.results.find? fun x => x.patch.name == name

/-- The summary of a report. -/
def describe (r : Report) : String :=
  r.applied.length.repr ++ " applied, " ++ r.failed.length.repr ++ " failed, " ++
    r.results.length.repr ++ " total"

/-- The lines about one result; a patch that was applied is shown before and after. -/
def resultLines (x : PatchResult) : List String :=
  ["", "; " ++ x.describe, ";   target: " ++ x.patch.target.key] ++
  (x.warnings.map fun c => ";   warning: " ++ c.message) ++
  (if x.applied then
    [";   before:"] ++ x.before.lines x.window? ++ [";   after:"] ++ x.patched.lines none
  else [])

/-- The listing of a report. -/
def render (r : Report) : String :=
  "\n".intercalate (("; patch report: " ++ r.describe) :: r.results.flatMap resultLines) ++ "\n"

end Report

end Peephole
