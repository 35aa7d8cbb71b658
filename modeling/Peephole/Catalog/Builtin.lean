-- The patch that comes with the program. The constructor of the user store opens a file
-- whose name holds a version, so that every new version starts with an empty file. The
-- patch puts one fixed name in the place of it.
import Peephole.Catalog.Basic
import Peephole.Instruction.Build

namespace Peephole.Catalog

/-! ## Members -/

/-- The field that holds the file. -/
def blueprintsField : FieldRef where
  declaringType := "UserPersistance"
  name := "blueprints"
  fieldType := "Facepunch.Sqlite.Database"
  isStatic := true

/-- The text of an integer. -/
def intToString : MethodRef where
  declaringType := "System.Int32"
  name := "ToString"
  parameterTypes := []
  returnType := "System.String"
  isStatic := false

/-- The concatenation of some texts. -/
def concatOf (count : Nat) : MethodRef where
  declaringType := "System.String"
  name := "Concat"
  parameterTypes := List.replicate count "System.String"
  returnType := "System.String"
  isStatic := true

/-- The opening of a file. -/
def databaseOpen : MethodRef where
  declaringType := "Facepunch.Sqlite.Database"
  name := "Open"
  parameterTypes := ["System.String", "System.Boolean"]
  returnType := "void"
  isStatic := false

/-- The members that the patch speaks of. -/
def builtinMembers : MemberTable := OrderedMap.ofList
  [("UserPersistance.blueprints", .field blueprintsField),
   ("Int32.ToString", .method intToString),
   ("String.Concat/3", .method (concatOf 3)),
   ("String.Concat/2", .method (concatOf 2)),
   ("Database.Open", .method databaseOpen)]

/-! ## The patch -/

/-- The name of the file. -/
def blueprintsFile : String := "player.blueprints.db"

/-- The instructions that open the file, the version loaded in any encoding. -/
def blueprintsRules (blueprints : FieldRef) (toText concat openFile : MethodRef) : List Rule :=
  [.exact .ldsfld (some (.field blueprints)),
   .exact .ldloc1 none,
   .anyConstant none,
   .exact .stloc2 none,
   .loadLocalAddress 2,
   .exact .call (some (.method toText)),
   .exact .ldstr (some (.string ".db")),
   .exact .call (some (.method concat)),
   .exact .ldcI41 none,
   .exact .callvirt (some (.method openFile))]

/-- The patch for a table of members; a table that holds nothing stands for the one that comes
with the program. -/
def blueprintsPatch (given : Option MemberTable) : Except Fault Patch := do
  let table := match given with
    | some t => if t.isEmpty then builtinMembers else t
    | none => builtinMembers
  let blueprints ← table.field "UserPersistance.blueprints"
  let toText ← table.method "Int32.ToString"
  let concat ← table.method "String.Concat/3"
  let openFile ← table.method "Database.Open"
  let join ← table.method "String.Concat/2"
  return {
    name := "PreventBlueprintWipes.ChangeBlueprintsPath"
    target := .constructor "UserPersistance" ["System.String"]
    pattern :=
      { name := "blueprints_filename"
        rules := blueprintsRules blueprints toText concat openFile
        nonempty := by simp [blueprintsRules] }
    keep := 2
    remove := 6
    insert := [.loadString blueprintsFile, .callOf join]
    named := by decide
    fits := by simp [Pattern.length, blueprintsRules] }

/-- The catalogue that comes with the program. -/
def builtin (given : Option MemberTable) : Except Fault Catalog := do
  empty.add (← blueprintsPatch given)

end Peephole.Catalog
