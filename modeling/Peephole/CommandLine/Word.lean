-- The words of a command line. A word is a value, or it names settings or switches: in
-- full, by an unambiguous beginning, or several switches by their letters.
import Peephole.Text.Integer

namespace Peephole.CommandLine

/-! ## Names -/

/-- What is set to a value. -/
inductive Setting where
  | patches | members | out | report
  deriving DecidableEq

/-- What is switched on. -/
inductive Switch where
  | help | builtin | strict | verbose
  deriving DecidableEq

/-- What a word may name. -/
inductive Name where
  | setting (s : Setting)
  | switch (s : Switch)
  deriving DecidableEq

/-- Two dashes, which also stand alone to say that only values follow. -/
def dashes : String := "--"

/-- The names in full. -/
def longNames : List (String × Name) :=
  [("--help", .switch .help), ("--patches", .setting .patches), ("--members", .setting .members),
   ("--builtin", .switch .builtin), ("--out", .setting .out), ("--report", .setting .report),
   ("--strict", .switch .strict), ("--verbose", .switch .verbose)]

/-- The switches that have a letter. -/
def letters : List (Char × Switch) := [('h', .help), ('v', .verbose)]

/-- The names of which a text is the beginning. -/
def namesFrom (text : String) : List Name :=
  (longNames.filter fun n => text.toList.isPrefixOf n.1.toList).map Prod.snd

/-! ## Words -/

/-- A word. -/
inductive Word where
  | value (text : String)
  /-- A setting, and the value that stands in the same word if there is one. -/
  | setting (s : Setting) (value : Option String)
  /-- Switches, and whether that is all that the word names. -/
  | switches (ss : List Switch) (all : Bool)
  /-- A switch with a value, which it has no use for. -/
  | misused
  | unknown
  /-- The word after which only values follow. -/
  | terminator

namespace Word

/-- The word of a name with a value after an equals sign if there is one. -/
def ofName (value : Option String) : Name → Word
  | .setting s => setting s value
  | .switch s => if value.isSome then misused else switches [s] true

/-- The word of letters after a dash; the letters before one that is not known still count. -/
def ofLetters (found : List Switch) : List Char → Word
  | [] => switches found true
  | c :: rest =>
    match letters.lookup c with
    | some s => ofLetters (found ++ [s]) rest
    | none => if !found.isEmpty && (c == '=' || c == '-') then misused else switches found false

/-- Whether characters are decimal digits, at least one. -/
def areDigits (cs : List Char) : Bool :=
  !cs.isEmpty && cs.all fun c => (Text.digitValue? c).isSome

/-- Whether characters after a dash make a negative number, with or without a fraction. -/
def areNumber (cs : List Char) : Bool :=
  let isNoPoint := fun c => c != '.'
  areDigits cs ||
    match cs.takeWhile isNoPoint, cs.dropWhile isNoPoint with
    | whole, _ :: fraction => (whole.isEmpty || areDigits whole) && areDigits fraction
    | _, [] => false

/-- Characters without a line end at their end. -/
def withoutLineEnd (cs : List Char) : List Char :=
  if cs.getLast? = some '\n' then cs.dropLast else cs

/-- The word of what begins with a dash and names nothing: a value all the same if it is a
negative number or has a space in it. -/
def ofUnnamed (text : String) (afterDash : List Char) : Word :=
  if areNumber (withoutLineEnd afterDash) || text.toList.contains ' ' then value text else unknown

/-- The word of a text with two dashes, unless it is the beginning of several names. -/
def ofLong (text : String) (afterDash : List Char) : Option Word :=
  let cs := text.toList
  let name := String.ofList (cs.takeWhile (· != '='))
  let attached := match cs.dropWhile (· != '=') with
    | _ :: rest => some (String.ofList rest)
    | [] => none
  match longNames.lookup name, namesFrom name with
  | some n, _ => some (ofName attached n)
  | none, [n] => some (ofName attached n)
  | none, [] => some (ofUnnamed text afterDash)
  | none, _ => none

/-- The word of a text, unless it is the beginning of several names. -/
def ofString (text : String) : Option Word :=
  match text.toList with
  | '-' :: '-' :: rest => ofLong text ('-' :: rest)
  | '-' :: c :: rest =>
    if (letters.lookup c).isSome then
      some (match rest with
        | '=' :: _ => misused
        | _ => ofLetters [] (c :: rest))
    else some (ofUnnamed text (c :: rest))
  | _ => some (value text)

end Word

/-- The words of a command line, unless one is the beginning of several names. -/
def words : List String → Option (List Word)
  | [] => some []
  | text :: rest =>
    if text = dashes then some (.terminator :: rest.map .value)
    else do return (← Word.ofString text) :: (← words rest)

end Peephole.CommandLine
