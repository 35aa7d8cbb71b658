-- JSON values as messages and reports show them.
import Peephole.Json.Basic
import Peephole.Decimal.Shortest
import Peephole.Text.Quoted

namespace Peephole.Json

mutual

/-- A value as it is shown inside a message, texts being quoted. -/
def shown : Json → String
  | .null => "None"
  | .bool b => if b then "True" else "False"
  | .int n => n.repr
  | .float x => x.text
  | .str s => Text.quoted s
  | .arr items => Text.bracketed (shownItems items)
  | .obj fields => "\x7b" ++ ", ".intercalate (shownFields fields) ++ "\x7d"

/-- Each of some values as it is shown. -/
def shownItems : List Json → List String
  | [] => []
  | x :: xs => shown x :: shownItems xs

/-- Each of some fields as it is shown. -/
def shownFields : List (String × Json) → List String
  | [] => []
  | (name, x) :: xs => (Text.quoted name ++ ": " ++ shown x) :: shownFields xs

end

/-- The text that a value stands for: a text stands for itself, anything else for how it is
shown. -/
def text : Json → String
  | .str s => s
  | x => x.shown

end Peephole.Json
