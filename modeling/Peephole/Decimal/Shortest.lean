-- The shortest decimal text of a binary number: the fewest digits that read back as
-- the same number and, of several such decimals, the one nearest to it. A number is
-- written without an exponent from one ten-thousandth up to, but not including, ten
-- to the sixteenth.
import Peephole.Decimal.Binary64

namespace Peephole.Binary64

/-- A number and the ends of the range that rounds to it, in units of a quarter of its last
place, as whole numbers over a common scale. -/
structure Neighbourhood where
  low : Nat
  value : Nat
  high : Nat
  /-- Whether the ends themselves round to the number. -/
  closed : Bool

/-- The neighbourhood of a number: half a place on both sides, a quarter below a power of two. -/
def neighbourhood (m : Nat) (e : Int) : Neighbourhood :=
  let below := if m = Nat.pow 2 52 ∧ minExponent < e then 1 else 2
  ⟨4 * m - below, 4 * m, 4 * m + 2, m % 2 == 0⟩

/-- What the units of a neighbourhood and of a decimal grid are to each other: a decimal `d` on
the grid is worth `d * grid` where a unit of the neighbourhood is worth `unit`. -/
structure Scale where
  grid : Nat
  unit : Nat

/-- The scale of the grid of ten to a power against a binary exponent. -/
def scaleOf (power : Int) (e : Int) : Scale :=
  let q := e - 2
  ⟨Nat.pow 10 power.toNat * Nat.pow 2 (-q).toNat, Nat.pow 10 (-power).toNat * Nat.pow 2 q.toNat⟩

/-- Whether a decimal on a grid lies in a neighbourhood. -/
def Neighbourhood.holds (n : Neighbourhood) (s : Scale) (d : Nat) : Bool :=
  if n.closed then decide (n.low * s.unit ≤ d * s.grid) && decide (d * s.grid ≤ n.high * s.unit)
  else decide (n.low * s.unit < d * s.grid) && decide (d * s.grid < n.high * s.unit)

/-- The decimal on a grid that lies in a neighbourhood nearest to its number, if any does. -/
def Neighbourhood.nearest? (n : Neighbourhood) (s : Scale) : Option Nat :=
  let down := n.value * s.unit / s.grid
  let up := down + 1
  match n.holds s down, n.holds s up with
  | true, true =>
    let toDown := n.value * s.unit - down * s.grid
    let toUp := up * s.grid - n.value * s.unit
    if toDown < toUp then some down
    else if toUp < toDown then some up
    else if down % 2 = 0 then some down else some up
  | true, false => some down
  | false, true => some up
  | false, false => none

/-- The exponent of the leading digit of a positive number: it is at least ten to this power
and less than ten to the next. -/
def leadingExponent (m : Nat) (e : Int) : Int :=
  let whole := wholeMagnitude m e
  if whole ≠ 0 then ((Nat.toDigits 10 whole).length : Int) - 1
  else
    let places := (List.range 400).find? fun j => decide (Nat.pow 2 (-e).toNat ≤ m * Nat.pow 10 j)
    Int.negOfNat (places.getD 0)

/-- A decimal: digits, and the power of ten of the last of them. -/
structure Digits where
  digits : Nat
  power : Int

/-- A decimal without zeros at its end; the number of its digits bounds the search. -/
def Digits.normalize (d : Digits) : Digits :=
  (List.range (Nat.toDigits 10 d.digits).length).foldl
    (fun d _ => if d.digits ≠ 0 ∧ d.digits % 10 = 0 then ⟨d.digits / 10, d.power + 1⟩ else d) d

/-- The shortest decimal that reads back as a positive number. -/
def shortest (m : Nat) (e : Int) : Digits :=
  let lead := leadingExponent m e
  let n := neighbourhood m e
  let found := (List.range 17).findSome? fun i : Nat =>
    let power := lead - i
    (n.nearest? (scaleOf power e)).map fun d => (⟨d, power⟩ : Digits)
  (found.getD ⟨0, 0⟩).normalize

/-- The greatest power of ten of a leading digit that is written without an exponent. -/
def plainUpTo : Int := 15

/-- The least power of ten of a leading digit that is written without an exponent. -/
def plainDownTo : Int := -4

/-- The digits of a decimal laid out around the point, one digit at least on either side. -/
def plainLayout (ds : List Char) (power : Int) : List Char :=
  if 0 ≤ power then ds ++ List.replicate power.toNat '0' ++ ['.', '0']
  else
    let places := (-power).toNat
    if places < ds.length then ds.take (ds.length - places) ++ '.' :: ds.drop (ds.length - places)
    else '0' :: '.' :: List.replicate (places - ds.length) '0' ++ ds

/-- An exponent with its sign and two digits at least. -/
def exponentLayout (x : Int) : List Char :=
  (if x < 0 then '-' else '+') :: (Nat.toDigits 10 x.natAbs).leftpad 2 '0'

/-- The digits of a decimal with the point after the first and an exponent. -/
def scientificLayout (ds : List Char) (lead : Int) : List Char :=
  match ds with
  | [] => []
  | [d] => d :: 'e' :: exponentLayout lead
  | d :: rest => d :: '.' :: rest ++ 'e' :: exponentLayout lead

/-- The text of a decimal. -/
def Digits.layout (d : Digits) : List Char :=
  let ds := Nat.toDigits 10 d.digits
  let lead := d.power + ds.length - 1
  if plainDownTo ≤ lead ∧ lead ≤ plainUpTo then plainLayout ds d.power
  else scientificLayout ds lead

/-- The text of a number. -/
def text : Binary64 → String
  | .nan => "nan"
  | .infinite negative => if negative then "-inf" else "inf"
  | .finite negative m e =>
    let body := if m = 0 then ['0', '.', '0'] else (shortest m e).layout
    String.ofList (if negative then '-' :: body else body)

end Peephole.Binary64
