-- Cutting a text at a separator.

namespace Peephole.Text

/-- The pieces between separators; a text without a separator is one piece. -/
def split (sep : Char) : List Char → List (List Char)
  | [] => [[]]
  | c :: cs =>
    if c = sep then [] :: split sep cs
    else
      match split sep cs with
      | piece :: pieces => (c :: piece) :: pieces
      | [] => [[c]]

end Peephole.Text
