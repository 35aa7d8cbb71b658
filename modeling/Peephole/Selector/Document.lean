-- Selectors in documents: the written form, or an object of the parts.
import Peephole.Json.Access

namespace Peephole.Selector

/-- Reads a selector. -/
def ofJson : Json → Except Fault Selector
  | .str s =>
    match parse s with
    | some t => .ok t
    | none => .error (.value (.malformedSelector (.str s)))
  | .obj fields => do
    let x := Json.obj fields
    let type ← x.item "type"
    let name ← x.item "name"
    let params ← Json.partsOf? (← x.item? "params")
    return ⟨type.text, name.text, params.map Json.text⟩
  | x => .error (.value (.malformedSelector x))

/-- A selector as a JSON value. -/
def toJson (s : Selector) : Json := .str s.key

end Peephole.Selector
