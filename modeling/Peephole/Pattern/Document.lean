-- Predicates, rules and patterns in documents.
import Peephole.Instruction.Document
import Peephole.Pattern.Basic

namespace Peephole

/-! ## Predicates -/

namespace Predicate

mutual

/-- Reads a predicate: an object that says its kind. -/
def ofJson (table : Option MemberTable) : Json → Except Fault Predicate
  | .obj fields =>
    let x := Json.obj fields
    match Json.field? fields "pred" with
    | some (.str "any_integer") => .ok .anyInteger
    | some (.str "integer") => do return .integer (← (← x.item "value").integer)
    | some (.str "local") => do return .slot (← (← x.item "index").integer)
    | some (.str "equals") => do return .equals (← Operand.ofJson table none (← x.item "operand"))
    | some (.str "all") => do return .all (← partsIn table fields)
    | some (.str "either") => do return .either (← partsIn table fields)
    | kind => .error (.value (.unknownPredicate (kind.getD .null)))
  | _ => .error (.form .notAnObject)

/-- Reads the parts of a predicate that has some. -/
def partsIn (table : Option MemberTable) : List (String × Json) → Except Fault (List Predicate)
  | [] => .error (.lookup (.missingKey "of"))
  | (name, x) :: rest => if name = "of" then partsOf table x else partsIn table rest

/-- Reads the parts that a value holds. A text or an object holds no predicate. -/
def partsOf (table : Option MemberTable) : Json → Except Fault (List Predicate)
  | .arr items => ofItems table items
  | .str s => if s.isEmpty then .ok [] else .error (.form .notAnObject)
  | .obj fields => if fields.isEmpty then .ok [] else .error (.form .notAnObject)
  | _ => .error (.form .notIterable)

/-- Reads predicates one by one. -/
def ofItems (table : Option MemberTable) : List Json → Except Fault (List Predicate)
  | [] => .ok []
  | x :: xs => do
    let p ← ofJson table x
    return p :: (← ofItems table xs)

end

mutual

/-- A predicate as a JSON object. -/
def toJson : Predicate → Json
  | anyInteger => .obj [("pred", .str "any_integer")]
  | integer value => .obj [("pred", .str "integer"), ("value", .int value)]
  | slot index => .obj [("pred", .str "local"), ("index", .int index)]
  | equals operand => .obj [("pred", .str "equals"), ("operand", operand.toJson)]
  | all ps => .obj [("pred", .str "all"), ("of", .arr (toItems ps))]
  | either ps => .obj [("pred", .str "either"), ("of", .arr (toItems ps))]

/-- Each of some predicates as a JSON object. -/
def toItems : List Predicate → List Json
  | [] => []
  | p :: ps => toJson p :: toItems ps

end

end Predicate

/-! ## Rules -/

/-- The class that a value names, in any case of letters. -/
def EncodingClass.ofJson (x : Json) : Except Fault EncodingClass :=
  let name := Text.uppercase x.text
  match EncodingClass.ofName? name with
  | some c => .ok c
  | none => .error (.lookup (.unknownEncoding name))

/-- Why a rule cannot be written: it asks for a test that is no predicate. -/
inductive RuleFault where
  | customTest

/-- The wording of a refusal. -/
def RuleFault.message : RuleFault → String
  | customTest => "rules with plain callables cannot be serialised"

namespace Rule

/-- A rule for some classes, if there are any. -/
def ofClasses (cs : List EncodingClass) (condition : Option Condition) : Except Fault Rule :=
  match ClassSet.ofList? cs with
  | some classes => .ok (.anyOf classes condition)
  | none => .error (.value .noClasses)

/-- Reads a rule for an opcode. -/
def exactOfJson (table : Option MemberTable) (x : Json) : Except Fault Rule := do
  let op ← (Opcode.ofJson (← x.item "op")).mapError .lookup
  return .exact op (← Operand.beside table op x)

/-- Reads a rule for classes. -/
def anyOfJson (table : Option MemberTable) (x : Json) : Except Fault Rule := do
  let classes ← (← (← x.item "classes").parts).mapM EncodingClass.ofJson
  let predicate ← match ← x.present? "where" with
    | some y => (Predicate.ofJson table y).map some
    | none => pure none
  ofClasses classes (predicate.map .predicate)

/-- Reads a rule for integer constants. -/
def constantOfJson (x : Json) : Except Fault Rule := do
  match ← x.present? "value" with
  | some y => return anyConstant (some (← y.integer))
  | none => return anyConstant none

/-- Reads a rule; one that does not say its kind is for an opcode. -/
def ofJson (table : Option MemberTable) (x : Json) : Except Fault Rule := do
  match (← x.item? "rule").getD (.str "exact") with
  | .str "exact" => exactOfJson table x
  | .str "any" => anyOfJson table x
  | .str "int_constant" => constantOfJson x
  | kind => .error (.value (.unknownRule kind))

/-- The condition of a rule as a field. -/
def conditionField : Option Condition → Except RuleFault (List (String × Json))
  | none => .ok []
  | some (.predicate p) => .ok [("where", p.toJson)]
  | some (.custom _) => .error .customTest

/-- A rule as a JSON object, if it can be written. -/
def toJson : Rule → Except RuleFault Json
  | exact op operand =>
    .ok (.obj ([("rule", .str "exact"), ("op", .str op.mnemonic)] ++
      operand.toList.map fun o => ("operand", o.toJson)))
  | anyOf classes condition =>
    (conditionField condition).map fun extra =>
      .obj ([("rule", .str "any"),
        ("classes", .arr (classes.members.map fun c => .str c.name))] ++ extra)

end Rule

/-! ## Patterns -/

namespace Pattern

/-- Reads a pattern of a name from its rules. -/
def ofParts (table : Option MemberTable) (name : Except Fault String) (rules : List Json) :
    Except Fault Pattern := do
  let rules ← rules.mapM (Rule.ofJson table)
  let name ← name
  match Pattern.ofRules? name rules with
  | some p => .ok p
  | none => .error (.value (.noRules name))

/-- Reads a pattern: an object with a name and rules. -/
def ofJson (table : Option MemberTable) (x : Json) : Except Fault Pattern := do
  ofParts table ((x.item "name").map Json.text) (← (← x.item "rules").parts)

/-- A pattern as a JSON object, if its rules can be written. -/
def toJson (p : Pattern) : Except RuleFault Json := do
  return .obj [("name", .str p.name), ("rules", .arr (← p.rules.mapM Rule.toJson))]

end Pattern

end Peephole
