-- Finding an opcode by its mnemonic. Case and blanks around the word do not matter,
-- and an underscore may stand for a dot.
import Peephole.Opcode.Basic
import Peephole.Text.Blank
import Peephole.Text.Case

namespace Peephole.Opcode

/-- The opcode whose mnemonic is exactly this word. -/
def ofWord? (word : List Char) : Option Opcode := all.find? fun op => op.mnemonic.toList == word

/-- A dot in place of an underscore. -/
def dotted (c : Char) : Char := if c = '_' then '.' else c

/-- The word of a text: without the blanks around it, in lower case. -/
def wordOf (text : String) : List Char := (Text.trim text.toList).map Text.lower

/-- The opcode that a text names, either as it stands or with dots for underscores. -/
def lookup (text : String) : Option Opcode :=
  (ofWord? (wordOf text)).or (ofWord? ((wordOf text).map dotted))

end Peephole.Opcode
