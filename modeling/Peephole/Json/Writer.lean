-- Writing JSON in ASCII: on one line, or with every item and field on a line of its
-- own.
import Peephole.Json.Basic
import Peephole.Decimal.Shortest
import Peephole.Text.Quoted

namespace Peephole.Json.Writer

/-- A code unit as an escape. -/
def unitEscape (u : Nat) : List Char := '\\' :: 'u' :: Text.hexDigits 4 u

/-- A character inside a string. Beyond the first plane it is a pair of surrogates. -/
def stringChar (c : Char) : List Char :=
  if c = '"' ∨ c = '\\' then ['\\', c]
  else if c = '\n' then ['\\', 'n']
  else if c = '\r' then ['\\', 'r']
  else if c = '\t' then ['\\', 't']
  else if c = '\x08' then ['\\', 'b']
  else if c = '\x0c' then ['\\', 'f']
  else if 0x20 ≤ c.toNat ∧ c.toNat < 0x7f then [c]
  else if c.toNat < 0x10000 then unitEscape c.toNat
  else
    let v := c.toNat - 0x10000
    unitEscape (0xd800 + v / 0x400) ++ unitEscape (0xdc00 + v % 0x400)

/-- A string with its quotes. -/
def string (s : String) : String :=
  String.ofList ('"' :: s.toList.flatMap stringChar ++ ['"'])

/-- A floating point number; the special values have names. -/
def float : Binary64 → String
  | .nan => "NaN"
  | .infinite negative => if negative then "-Infinity" else "Infinity"
  | x => x.text

/-- What separates and encloses the parts of a value. -/
structure Layout where
  /-- What stands before a part nested to a depth. -/
  gap : Nat → String
  comma : String
  colon : String

/-- Everything on one line. -/
def oneLine : Layout := ⟨fun _ => "", ", ", ": "⟩

/-- Each part on a line of its own, two blanks deeper than what holds it. -/
def indented : Layout :=
  ⟨fun depth => "\n" ++ String.ofList (List.replicate (2 * depth) ' '), ",", ": "⟩

/-- The parts of a value between brackets; without parts the brackets close at once. -/
def enclosed (l : Layout) (depth : Nat) (opening closing : String) : List String → String
  | [] => opening ++ closing
  | parts =>
    opening ++ l.gap (depth + 1) ++ (l.comma ++ l.gap (depth + 1)).intercalate parts
      ++ l.gap depth ++ closing

mutual

/-- A value that stands at a depth. -/
def value (l : Layout) (depth : Nat) : Json → String
  | .null => "null"
  | .bool b => if b then "true" else "false"
  | .int n => n.repr
  | .float x => float x
  | .str s => string s
  | .arr items => enclosed l depth "[" "]" (values l (depth + 1) items)
  | .obj fields => enclosed l depth "\x7b" "\x7d" (members l (depth + 1) fields)

/-- Each of some values at a depth. -/
def values (l : Layout) (depth : Nat) : List Json → List String
  | [] => []
  | x :: xs => value l depth x :: values l depth xs

/-- Each of some fields at a depth. -/
def members (l : Layout) (depth : Nat) : List (String × Json) → List String
  | [] => []
  | (name, x) :: xs => (string name ++ l.colon ++ value l depth x) :: members l depth xs

end

end Writer

/-- The text of a value on one line. -/
def compress (x : Json) : String := Writer.value Writer.oneLine 0 x

/-- The text of a document: indented, and ended by a line end. -/
def document (x : Json) : String := Writer.value Writer.indented 0 x ++ "\n"

end Peephole.Json
