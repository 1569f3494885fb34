/-!
Double-precision values as bit patterns, and the rounding of a ratio of natural
numbers to the nearest of them.

A magnitude (the pattern without its sign bit) counts the finite values upwards
from zero, so nearness and order are statements about natural numbers.
-/

namespace LoxScanner

/-- A double-precision value, given by its 64 bits. -/
structure Binary64 where
  bits : UInt64
  deriving DecidableEq, Inhabited

namespace Binary64

/-- The number of bits after a significand's leading bit. -/
def fractionBits : Nat := 52

/-- The number of magnitudes in a binade. -/
def binadeSize : Nat :=
  Nat.pow 2 fractionBits

/-- The weight of the sign bit. -/
def signWeight : Nat :=
  Nat.pow 2 63

/-- One in units of the least positive value. -/
def unitsPerOne : Nat :=
  Nat.pow 2 1074

/-- The bit pattern without the sign bit. -/
def magnitude (value : Binary64) : Nat :=
  value.bits.toNat % signWeight

def isNegative (value : Binary64) : Bool :=
  signWeight ≤ value.bits.toNat

/-- The magnitude of an infinity: all exponent bits set, no fraction bit set. -/
def infiniteMagnitude : Nat :=
  0x7ff * binadeSize

def isNaN (value : Binary64) : Bool :=
  infiniteMagnitude < value.magnitude

def isZero (value : Binary64) : Bool :=
  value.magnitude = 0

/-- The non-negative value of a magnitude. -/
def ofMagnitude (magnitude : Nat) : Binary64 :=
  ⟨UInt64.ofNat magnitude⟩

/-- A finite magnitude's value in units of the least positive value. -/
def unitCount (magnitude : Nat) : Nat :=
  let exponent := magnitude / binadeSize
  let fraction := magnitude % binadeSize
  if exponent = 0 then fraction
  else (binadeSize + fraction) * Nat.pow 2 (exponent - 1)

/-- Equality of numbers: the two zeros are equal, and a NaN equals nothing. -/
def numericEq (left right : Binary64) : Bool :=
  !left.isNaN && !right.isNaN &&
    (left.bits == right.bits || (left.isZero && right.isZero))

/-! ## Rounding -/

/-- The integer nearest to `numerator / denominator`; a tie goes to the even
neighbour. -/
def roundDiv (numerator denominator : Nat) : Nat :=
  let quotient := numerator / denominator
  let remainder := numerator % denominator
  if 2 * remainder < denominator then quotient
  else if denominator < 2 * remainder then quotient + 1
  else if quotient % 2 = 0 then quotient
  else quotient + 1

/-- The magnitude nearest to `numerator / denominator`. All binades have equally
many magnitudes, each binade at one spacing, so the rounded significand is added to
the count of the binades below. A significand that rounds up to twice the size of a
binade thus carries into the next one, and what lies above the last binade is
infinite. -/
def nearestMagnitude (numerator denominator : Nat) : Nat :=
  let scaled := numerator * unitsPerOne
  let binade := (scaled / denominator).log2 - fractionBits
  min infiniteMagnitude
    (binade * binadeSize + roundDiv scaled (denominator * Nat.pow 2 binade))

/-- The value nearest to `numerator / denominator`. -/
def ofRatio (numerator denominator : Nat) : Binary64 :=
  ofMagnitude (nearestMagnitude numerator denominator)

end Binary64

end LoxScanner
