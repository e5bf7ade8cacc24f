import Lectern.Text

/-!
# Decimal Numbers

Numbers as documents write them: digits, a point and an exponent. What a document may hold is
bounded by the floating-point numbers of 64 bits, and whether a number is within their range is
decided exactly, on its digits.
-/

namespace Lectern

/-- A **decimal number**: its sign, its digits without the point, and the power of ten by which
they are scaled. -/
structure Decimal where
  negative : Bool := false
  digits : Nat
  exponent : Int := 0
deriving DecidableEq, Repr

namespace Decimal

/-- The least size that rounds to infinity: half a step beyond the greatest floating-point
number. -/
def overflow : Nat := Nat.pow 2 1024 - Nat.pow 2 970

/-- Whether a number is **in range**: as a floating-point number it is not infinite. -/
def isFinite (n : Decimal) : Bool :=
  let magnitude : Int := (Nat.toDigits 10 n.digits).length + n.exponent
  n.digits == 0 || decide (magnitude ≤ 308) || (decide (magnitude = 309) &&
    (if 0 ≤ n.exponent then n.digits * Nat.pow 10 n.exponent.toNat < overflow
      else n.digits < overflow * Nat.pow 10 (-n.exponent).toNat))

end Decimal

end Lectern
