-- Numbers as listings and reports write them.

namespace Peephole.Text

/-- The decimal digits of a number, with zeros in front up to a width. -/
def padded (width n : Nat) : String := String.ofList ((Nat.toDigits 10 n).leftpad width '0')

/-- A number with its sign, zero counting as positive. -/
def signed (n : Int) : String := if 0 ≤ n then "+" ++ n.repr else n.repr

end Peephole.Text
