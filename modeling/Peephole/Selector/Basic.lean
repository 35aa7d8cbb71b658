-- Selectors: the name of the method whose body is meant, with the types of its
-- parameters. Written as `Type::Name(first, second)`.
import Peephole.Operand.Basic
import Peephole.Text.Blank
import Peephole.Text.Split

namespace Peephole

/-- A method, by its type, its name and the types of its parameters. -/
structure Selector where
  declaringType : String
  name : String
  parameterTypes : List String := []
  deriving DecidableEq

namespace Selector

/-- The constructor of a type. -/
def constructor (declaringType : String) (parameterTypes : List String) : Selector :=
  ⟨declaringType, constructorName, parameterTypes⟩

/-- Whether a constructor is meant. -/
def isConstructor (s : Selector) : Bool := s.name == constructorName

/-- The written form. -/
def key (s : Selector) : String :=
  s.declaringType ++ "::" ++ s.name ++ "(" ++ ", ".intercalate s.parameterTypes ++ ")"

/-! ## Reading -/

/-- The characters of a type: no colon and no blank. -/
def isTypeChar (c : Char) : Bool := c != ':' && !Text.isBlank c

/-- The characters of a name: no opening bracket and no blank. -/
def isNameChar (c : Char) : Bool := c != '(' && !Text.isBlank c

/-- The characters between the brackets. -/
def isParameterChar (c : Char) : Bool := c != ')'

/-- The types in the text between the brackets: what stands between commas, trimmed, the empty
ones left out. -/
def parametersOf (cs : List Char) : List String :=
  (((Text.split ',' cs).map Text.trim).filter fun p => !p.isEmpty).map String.ofList

/-- Reads the brackets and nothing but blanks after them. -/
def parseParameters : List Char → Option (List String)
  | '(' :: cs =>
    match cs.dropWhile isParameterChar with
    | ')' :: rest =>
      if rest.all Text.isBlank then some (parametersOf (cs.takeWhile isParameterChar)) else none
    | _ => none
  | _ => none

/-- Reads a name and the brackets after it. -/
def parseMethod (cs : List Char) : Option (String × List String) :=
  let name := cs.takeWhile isNameChar
  if name.isEmpty then none
  else
    (parseParameters ((cs.dropWhile isNameChar).dropWhile Text.isBlank)).map fun params =>
      (String.ofList name, params)

/-- Reads a selector. -/
def parse (text : String) : Option Selector :=
  let cs := text.toList.dropWhile Text.isBlank
  let type := cs.takeWhile isTypeChar
  match cs.dropWhile isTypeChar with
  | ':' :: ':' :: rest =>
    if type.isEmpty then none
    else (parseMethod rest).map fun (name, params) => ⟨String.ofList type, name, params⟩
  | _ => none

end Selector

end Peephole
