import LoxScanner.Number.Binary64

/-!
Decimals `coefficient * 10 ^ exponent` and the double-precision value nearest to
one. `Decimal.digits` writes a coefficient without leading zeros, and
`Decimal.ofDigits` reads any list of digits.
-/

namespace LoxScanner

/-- The number `coefficient * 10 ^ exponent`. -/
structure Decimal where
  coefficient : Nat
  exponent : Int
  deriving DecidableEq

namespace Decimal

/-- The number that a list of decimal digits writes. -/
def ofDigits (digits : List Char) : Nat :=
  digits.foldl (fun total digit => 10 * total + (digit.toNat - '0'.toNat)) 0

/-- The decimal digits of a number, without leading zeros; zero has one digit. -/
def digits (number : Nat) : List Char :=
  Nat.toDigits 10 number

def powerOfTen (exponent : Nat) : Nat :=
  Nat.pow 10 exponent

/-- The double-precision value nearest to a decimal. -/
def toBinary64 (decimal : Decimal) : Binary64 :=
  Binary64.ofRatio
    (decimal.coefficient * powerOfTen decimal.exponent.toNat)
    (powerOfTen (-decimal.exponent).toNat)

/-- The same number with the zeros at the end of its coefficient moved into the
exponent. -/
def normalize (decimal : Decimal) : Decimal :=
  if divides : decimal.coefficient ≠ 0 ∧ decimal.coefficient % 10 = 0 then
    normalize ⟨decimal.coefficient / 10, decimal.exponent + 1⟩
  else decimal
termination_by decimal.coefficient
decreasing_by omega

end Decimal

end LoxScanner
