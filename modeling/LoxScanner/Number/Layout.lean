import LoxScanner.Number.Shortest

/-!
The text of a double-precision value: its shortest digits, written with a point
inside a range of magnitudes and with an exponent outside it.
-/

namespace LoxScanner

/-- How a value's digits are laid out. -/
structure NumberLayout where
  /-- The least non-zero value written without an exponent. -/
  positionalFrom : Decimal
  /-- The least value above that which is written with an exponent again. -/
  positionalBelow : Decimal
  exponentMark : String
  nan : String
  infinite : String

namespace NumberLayout

/-- A number literal is positional from `0.0001` up to, but without, `10 ^ 16`. -/
def literal : NumberLayout :=
  ⟨⟨1, -4⟩, ⟨1, 16⟩, "e", "NaN", "inf"⟩

def isPositional (layout : NumberLayout) (magnitude : Nat) : Bool :=
  magnitude = 0 ||
    (layout.positionalFrom.toBinary64.magnitude ≤ magnitude &&
      magnitude < layout.positionalBelow.toBinary64.magnitude)

/-- Digits with a point, at least one digit on each side of it. -/
def positional (decimal : Decimal) : List Char :=
  let digits := Decimal.digits decimal.coefficient
  if 0 ≤ decimal.exponent then
    digits ++ List.replicate decimal.exponent.toNat '0' ++ ['.', '0']
  else
    let fractionLength := (-decimal.exponent).toNat
    let padded := List.replicate (fractionLength + 1 - digits.length) '0' ++ digits
    let wholeLength := padded.length - fractionLength
    padded.take wholeLength ++ '.' :: padded.drop wholeLength

/-- One digit before the point, and the power of ten that this leaves. -/
def scientific (layout : NumberLayout) (decimal : Decimal) : List Char :=
  let digits := Decimal.digits decimal.coefficient
  let power := decimal.exponent + (digits.length - 1 : Nat)
  let fraction := digits.drop 1
  digits.take 1 ++ (if fraction.isEmpty then [] else '.' :: fraction) ++
    layout.exponentMark.toList ++ (toString power).toList

/-- The text of a magnitude that is not a NaN. -/
def magnitudeText (layout : NumberLayout) (magnitude : Nat) : List Char :=
  if magnitude = Binary64.infiniteMagnitude then layout.infinite.toList
  else
    let decimal :=
      if magnitude = 0 then ⟨0, 0⟩ else Decimal.shortest magnitude
    if layout.isPositional magnitude then positional decimal
    else layout.scientific decimal

/-- The text of a value. A NaN has no sign. -/
def text (layout : NumberLayout) (value : Binary64) : String :=
  if value.isNaN then layout.nan
  else
    let unsigned := layout.magnitudeText value.magnitude
    String.ofList (if value.isNegative then '-' :: unsigned else unsigned)

end NumberLayout

/-- The text of a value as a number literal prints it. -/
def Binary64.text (value : Binary64) : String :=
  NumberLayout.literal.text value

end LoxScanner
