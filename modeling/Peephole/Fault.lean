-- What can be wrong with a document. Each fault is a cause; its wording is given in
-- one place. Faults fall into three kinds: something named is not there, a value is
-- not allowed, or a value has the wrong form for what is asked of it.
import Peephole.Member.Basic
import Peephole.Operand.Check
import Peephole.Selector.Basic

namespace Peephole

/-- Something that is named is not there. -/
inductive LookupFault where
  | missingKey (key : String)
  | unknownMnemonic (text : String)
  | unknownEncoding (name : String)
  | undeclaredMember (key : String)
  | notAField (key : String)
  | notAMethod (key : String)
  | noBody (target : Selector)

/-- A value is not allowed where it stands. -/
inductive ValueFault where
  | memberWithoutTable (reference : Json)
  | unknownOperandKind (kind : Json)
  | unknownMarkerKind (kind : Json)
  | malformedSelector (got : Json)
  | unknownPredicate (kind : Json)
  | unknownRule (kind : Json)
  | noClasses
  | noRules (pattern : String)
  | namelessPatch
  | negativeCount (patch : String)
  | countsExceedPattern (patch : String) (keep remove : Int) (length : Nat)
  | notAnInteger (text : String)
  | notANumber
  | alreadyDeclared (key : String) (existing : Member)
  | duplicatePatch (name : String)
  | duplicateBody (path : String) (target : Selector)
  | membersNotAnObject (path : String)
  | catalogNotADocument (path : String)
  | bodiesNotAList (path : String)

/-- A value has a form that does not allow what is asked of it. -/
inductive FormFault where
  /-- A key is asked of a value that has none. -/
  | notKeyed
  /-- A field that may be absent is asked of a value that is no object. -/
  | notAnObject
  /-- Parts are asked of a value that has none. -/
  | notIterable
  /-- A number is asked of a value that is none. -/
  | notNumeric
  /-- A whole number is asked of an infinite one. -/
  | infinite

/-- A file cannot be read or written. -/
inductive FileFault where
  | missing
  | isFolder
  | notAFolder

/-- A fault of a document or of a part of it. -/
inductive Fault where
  | lookup (f : LookupFault)
  /-- An instruction whose opcode is not to be found. -/
  | noOpcode (f : LookupFault)
  | operand (f : OperandFault)
  | value (f : ValueFault)
  | form (f : FormFault)
  | malformedJson
  | file (f : FileFault)

/-! ## Wording -/

/-- What is not there, in words. -/
def LookupFault.words : LookupFault → String
  | missingKey key => key
  | unknownMnemonic text => "unknown opcode mnemonic: " ++ Text.quoted text
  | unknownEncoding name => name
  | undeclaredMember key => "undeclared member " ++ Text.quoted key
  | notAField key => "member " ++ Text.quoted key ++ " is not a field"
  | notAMethod key => "member " ++ Text.quoted key ++ " is not a method"
  | noBody target => "no body for " ++ target.key

/-- The wording of a failed lookup, which stands in quotes. -/
def LookupFault.message (f : LookupFault) : String := Text.quoted f.words

/-- The text of a number that cannot be read is shown up to this length, with its quotes. -/
def shownNumberLength : Nat := 200

/-- The wording of a value that is not allowed. -/
def ValueFault.message : ValueFault → String
  | memberWithoutTable reference =>
    "member reference " ++ reference.shown ++ " without a member table"
  | unknownOperandKind kind => "unknown operand kind: " ++ kind.shown
  | unknownMarkerKind kind => kind.shown ++ " is not a valid BlockKind"
  | malformedSelector got => "malformed method selector: " ++ got.shown
  | unknownPredicate kind => "unknown predicate: " ++ kind.shown
  | unknownRule kind => "unknown rule kind: " ++ kind.shown
  | noClasses => "AnyOf rule requires at least one encoding class"
  | noRules pattern => "pattern " ++ Text.quoted pattern ++ " has no rules"
  | namelessPatch => "patch name must not be empty"
  | negativeCount patch => "patch " ++ Text.quoted patch ++ ": counts must be non-negative"
  | countsExceedPattern patch keep remove length =>
    "patch " ++ Text.quoted patch ++ ": keep " ++ keep.repr ++ " + remove " ++ remove.repr ++
      " exceeds pattern length " ++ length.repr
  | notAnInteger text =>
    "invalid literal for int() with base 10: " ++
      String.ofList ((Text.quoted text).toList.take shownNumberLength)
  | notANumber => "cannot convert float NaN to integer"
  | alreadyDeclared key existing =>
    "member " ++ Text.quoted key ++ " already declared as " ++ existing.describe
  | duplicatePatch name => "duplicate patch name: " ++ Text.quoted name
  | duplicateBody path target => path ++ ": duplicate body for " ++ target.key
  | membersNotAnObject path => "member table " ++ path ++ " must contain a JSON object"
  | catalogNotADocument path =>
    "patch catalogue " ++ path ++ " must contain a JSON object or list"
  | bodiesNotAList path => path ++ " does not contain a 'methods' list"

namespace Fault

/-- The wording of a fault. Faults of form and of files have none of their own. -/
def message : Fault → Option String
  | lookup f => some f.message
  | noOpcode f => some f.message
  | operand f => some f.message
  | value f => some f.message
  | form _ => none
  | malformedJson => none
  | file _ => none

/-- Whether a value is at fault: one that is not allowed, or a text that is no document. -/
def isAboutValue : Fault → Bool
  | noOpcode _ => true
  | operand _ => true
  | value _ => true
  | malformedJson => true
  | _ => false

/-- Whether a name is at fault. -/
def isAboutName : Fault → Bool
  | lookup _ => true
  | _ => false

/-- What stands in a line of text for a fault without wording of its own. -/
def summary : Fault → String
  | malformedJson => "<json error>"
  | form _ => "a value has the wrong form"
  | file .missing => "a file is missing"
  | file .isFolder => "a file is a folder"
  | file .notAFolder => "a folder is a file"
  | _ => "a document is at fault"

/-- The wording of a fault in a line of text. -/
def text (f : Fault) : String := f.message.getD f.summary

end Fault

end Peephole
