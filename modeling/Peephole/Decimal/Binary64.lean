-- Binary floating point numbers of sixty-four bits, kept as what they are worth: a
-- mantissa below two to the fifty-third times a power of two. Decimals are read to
-- the nearest such number, and of two equally near ones to the even one.

namespace Peephole

/-- A number of the format, or one of its special values. -/
inductive Binary64 where
  /-- The value that is no number. -/
  | nan
  | infinite (negative : Bool)
  /-- The mantissa times two to the exponent. -/
  | finite (negative : Bool) (mantissa : Nat) (exponent : Int)
  deriving DecidableEq

namespace Binary64

/-- The least exponent of the format. -/
def minExponent : Int := -1074

/-- The greatest exponent of the format. -/
def maxExponent : Int := 971

/-- Mantissas lie below this bound. -/
def mantissaBound : Nat := Nat.pow 2 53

/-- A quotient rounded to the nearest whole number, a half to the even neighbour. -/
def roundDiv (num den : Nat) : Nat :=
  let q := num / den
  let r := num % den
  if 2 * r < den then q
  else if 2 * r = den then (if q % 2 = 0 then q else q + 1)
  else q + 1

/-- The exponent at which the quotient of two numbers has fifty-three bits, give or take one. -/
def exponentNear (num den : Nat) : Int :=
  (Nat.log2 num : Int) - (Nat.log2 den : Int) - 52

/-- A quotient divided by two to an exponent and rounded. -/
def scaled (num den : Nat) (e : Int) : Nat :=
  if 0 ≤ e then roundDiv num (den * Nat.pow 2 e.toNat) else roundDiv (num * Nat.pow 2 (-e).toNat) den

/-- Whether a quotient divided by two to an exponent is below two to the fifty-second. -/
def tooSmall (num den : Nat) (e : Int) : Bool :=
  if 0 ≤ e then decide (num < Nat.pow 2 52 * (den * Nat.pow 2 e.toNat))
  else decide (num * Nat.pow 2 (-e).toNat < Nat.pow 2 52 * den)

/-- The number nearest to a quotient of positive numbers. -/
def ofQuotient (negative : Bool) (num den : Nat) : Binary64 :=
  let near := exponentNear num den
  let e := max minExponent (if tooSmall num den near then near - 1 else near)
  let m := scaled num den e
  let (m, e) := if m = mantissaBound then (m / 2, e + 1) else (m, e)
  if maxExponent < e then .infinite negative else .finite negative m e

/-- The number nearest to a decimal: digits times ten to a power, the count of the digits
being given. Decimals far outside the range are not computed. -/
def ofDecimal (negative : Bool) (digits count : Nat) (power : Int) : Binary64 :=
  if digits = 0 then .finite negative 0 minExponent
  else if 310 < (count : Int) + power then .infinite negative
  else if (count : Int) + power < -330 then .finite negative 0 minExponent
  else if 0 ≤ power then ofQuotient negative (digits * Nat.pow 10 power.toNat) 1
  else ofQuotient negative digits (Nat.pow 10 (-power).toNat)

/-- Whether a value is other than zero; the special values are. -/
def isNonzero : Binary64 → Bool
  | .finite _ m _ => m != 0
  | _ => true

/-- The whole part of a finite number, without its sign. -/
def wholeMagnitude (m : Nat) (e : Int) : Nat :=
  if 0 ≤ e then m * Nat.pow 2 e.toNat else m / Nat.pow 2 (-e).toNat

/-- A whole number with a sign put on. -/
def withSign (negative : Bool) (n : Nat) : Int := if negative then -(n : Int) else n

/-- The integer that a number is equal to, if there is one. -/
def toInt? : Binary64 → Option Int
  | .finite negative m e =>
    if 0 ≤ e ∨ m % Nat.pow 2 (-e).toNat = 0 then some (withSign negative (wholeMagnitude m e)) else none
  | _ => none

/-- Whether two values are the same number: zero has one value whatever its sign. -/
def sameNumber : Binary64 → Binary64 → Bool
  | .finite _ 0 _, .finite _ 0 _ => true
  | a, b => a == b

end Binary64

end Peephole
