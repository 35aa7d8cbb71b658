-- Reading JSON. Besides the standard grammar the names NaN, Infinity and -Infinity
-- are numbers; of several fields with one name the last gives the value and the
-- first the place.
import Peephole.Json.Basic
import Peephole.Data.OrderedMap

namespace Peephole.Json.Reader

/-! ## Blanks and numbers -/

/-- The characters that may stand between tokens. -/
def isSpace (c : Char) : Bool := c = ' ' || c = '\t' || c = '\n' || c = '\r'

/-- The rest after blanks. -/
def skip (cs : List Char) : List Char := cs.dropWhile isSpace

/-- The number that decimal digits write. -/
def decimalOf (cs : List Char) : Nat := cs.foldl (fun n c => 10 * n + (c.toNat - '0'.toNat)) 0

/-- The digits at the front, and the rest. -/
def digits (cs : List Char) : List Char × List Char := cs.span Char.isDigit

/-- The digits of a whole part: a zero, or digits that begin with another one. -/
def wholeDigits : List Char → Option (List Char × List Char)
  | '0' :: rest => some (['0'], rest)
  | c :: rest => if c.isDigit then some (digits (c :: rest)) else none
  | [] => none

/-- The digits after a point; a point without digits belongs to what follows. -/
def fractionDigits : List Char → Option (List Char × List Char)
  | '.' :: c :: rest => if c.isDigit then some (digits (c :: rest)) else none
  | _ => none

/-- An exponent without its letter. -/
def exponentValue (negative : Bool) (cs : List Char) : Option (Int × List Char) :=
  match digits cs with
  | ([], _) => none
  | (ds, rest) => some (Binary64.withSign negative (decimalOf ds), rest)

/-- An exponent; a letter without digits belongs to what follows. -/
def exponentPart : List Char → Option (Int × List Char)
  | c :: rest =>
    if c = 'e' ∨ c = 'E' then
      match rest with
      | '-' :: ds => exponentValue true ds
      | '+' :: ds => exponentValue false ds
      | ds => exponentValue false ds
    else none
  | [] => none

/-- A number after its sign: whole when it has neither a fraction nor an exponent. -/
def number (negative : Bool) (cs : List Char) : Option (Json × List Char) :=
  (wholeDigits cs).map fun (whole, rest) =>
    match fractionDigits rest with
    | some (frac, rest) =>
      let (x, rest) := (exponentPart rest).getD (0, rest)
      let ds := whole ++ frac
      (.float (.ofDecimal negative (decimalOf ds) ds.length (x - frac.length)), rest)
    | none =>
      match exponentPart rest with
      | some (x, rest) =>
        (.float (.ofDecimal negative (decimalOf whole) whole.length x), rest)
      | none => (.int (Binary64.withSign negative (decimalOf whole)), rest)

/-! ## Strings -/

/-- The value of a digit in base sixteen. -/
def hexValue? (c : Char) : Option Nat :=
  if '0' ≤ c ∧ c ≤ '9' then some (c.toNat - '0'.toNat)
  else if 'a' ≤ c ∧ c ≤ 'f' then some (c.toNat - 'a'.toNat + 10)
  else if 'A' ≤ c ∧ c ≤ 'F' then some (c.toNat - 'A'.toNat + 10)
  else none

/-- The code unit that four digits in base sixteen write. -/
def codeUnit? (a b c d : Char) : Option Nat := do
  return (((← hexValue? a) * 16 + (← hexValue? b)) * 16 + (← hexValue? c)) * 16 + (← hexValue? d)

/-- The character that a letter after a backslash stands for. -/
def escaped? : Char → Option Char
  | '"' => some '"'
  | '\\' => some '\\'
  | '/' => some '/'
  | 'b' => some '\x08'
  | 'f' => some '\x0c'
  | 'n' => some '\n'
  | 'r' => some '\r'
  | 't' => some '\t'
  | _ => none

/-- The code points up to the closing quote, an escaped code unit standing for its value; and
the rest. Control characters have to be escaped. -/
def codePoints : List Char → Option (List Nat × List Char)
  | '"' :: rest => some ([], rest)
  | '\\' :: 'u' :: a :: b :: c :: d :: rest => do
    let u ← codeUnit? a b c d
    let (us, rest) ← codePoints rest
    return (u :: us, rest)
  | '\\' :: c :: rest => do
    let e ← escaped? c
    let (us, rest) ← codePoints rest
    return (e.toNat :: us, rest)
  | c :: rest =>
    if c.toNat < 0x20 ∨ c = '\\' then none
    else do
      let (us, rest) ← codePoints rest
      return (c.toNat :: us, rest)
  | [] => none

/-- The characters of code points, a pair of surrogates making one. -/
def joinSurrogates : List Nat → List Char
  | high :: low :: rest =>
    if 0xd800 ≤ high ∧ high < 0xdc00 ∧ 0xdc00 ≤ low ∧ low < 0xe000 then
      Char.ofNat (0x10000 + (high - 0xd800) * 0x400 + (low - 0xdc00)) :: joinSurrogates rest
    else charOf high :: joinSurrogates (low :: rest)
  | [u] => [charOf u]
  | [] => []
where
  /-- A surrogate that stands alone is replaced. -/
  charOf (u : Nat) : Char := if 0xd800 ≤ u ∧ u < 0xe000 then '\ufffd' else Char.ofNat u

/-- The text of a string after its opening quote, and the rest. -/
def string (cs : List Char) : Option (String × List Char) :=
  (codePoints cs).map fun (us, rest) => (String.ofList (joinSurrogates us), rest)

/-! ## Values -/

/-- The rest after a word, if the word stands at the front. -/
def word? (w : String) (cs : List Char) : Option (List Char) :=
  if w.toList.isPrefixOf cs then some (cs.drop w.length) else none

/-- The words that are values, or begin one. -/
def words : List (String × Json) :=
  [("null", .null), ("true", .bool true), ("false", .bool false), ("NaN", .float .nan),
   ("Infinity", .float (.infinite false)), ("-Infinity", .float (.infinite true))]

/-- A value that is a word, or else a number. -/
def scalar (cs : List Char) : Option (Json × List Char) :=
  match words.findSome? fun w => (word? w.1 cs).map fun rest => (w.2, rest) with
  | some found => some found
  | none =>
    match cs with
    | '-' :: rest => number true rest
    | _ => number false cs

mutual

/-- A value and the rest after it, with fuel for the nesting. -/
def value : Nat → List Char → Option (Json × List Char)
  | 0, _ => none
  | fuel + 1, cs =>
    match cs with
    | '"' :: rest => (string rest).map fun (s, rest) => (.str s, rest)
    | '[' :: rest =>
      match skip rest with
      | ']' :: rest => some (.arr [], rest)
      | rest => (items fuel rest).map fun (xs, rest) => (.arr xs, rest)
    | '\x7b' :: rest =>
      match skip rest with
      | '\x7d' :: rest => some (.obj [], rest)
      | rest => (fields fuel rest).map fun (fs, rest) =>
          (.obj (OrderedMap.ofList fs).entries, rest)
    | _ => scalar cs

/-- The items of an array that is not empty, up to and with its bracket. -/
def items : Nat → List Char → Option (List Json × List Char)
  | 0, _ => none
  | fuel + 1, cs => do
    let (x, rest) ← value fuel cs
    match skip rest with
    | ']' :: rest => some ([x], rest)
    | ',' :: rest =>
      let (xs, rest) ← items fuel (skip rest)
      some (x :: xs, rest)
    | _ => none

/-- The fields of an object that is not empty, up to and with its brace. -/
def fields : Nat → List Char → Option (List (String × Json) × List Char)
  | 0, _ => none
  | fuel + 1, cs =>
    match cs with
    | '"' :: rest => do
      let (name, rest) ← string rest
      match skip rest with
      | ':' :: rest =>
        let (x, rest) ← value fuel (skip rest)
        match skip rest with
        | '\x7d' :: rest => some ([(name, x)], rest)
        | ',' :: rest =>
          let (fs, rest) ← fields fuel (skip rest)
          some ((name, x) :: fs, rest)
        | _ => none
      | _ => none
    | _ => none

end

end Reader

/-- The value that a text writes, nothing but blanks standing around it. Two steps for each
character are enough, since every second step takes a character. -/
def parse (s : String) : Option Json :=
  match Reader.value (2 * s.length + 2) (Reader.skip s.toList) with
  | some (x, rest) => if (Reader.skip rest).isEmpty then some x else none
  | none => none

end Peephole.Json
