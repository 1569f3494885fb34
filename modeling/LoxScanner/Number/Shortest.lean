import LoxScanner.Number.Decimal

/-!
The decimal with the fewest digits that reads back as a given double-precision
value.

For each digit count there is one grid of decimals around the value, and only
the two grid points next to the value matter: if any point of the grid reads
back, one of these does.
-/

namespace LoxScanner

namespace Shortest

/-- The places kept after the point. A positive value is at least
`2 ^ (-1074) > 10 ^ (-324)`, so its first 17 digits are all within these places. -/
def places : Nat := 341

/-- The most digits that telling two values apart can need. -/
def maxDigits : Nat := 17

/-- A finite positive value `numerator / denominator` in units of the last
place kept. -/
structure Scaled where
  numerator : Nat
  denominator : Nat

def Scaled.ofMagnitude (magnitude : Nat) : Scaled :=
  ⟨Binary64.unitCount magnitude * Decimal.powerOfTen places, Binary64.unitsPerOne⟩

/-- The number of digits before the last place kept. -/
def Scaled.digitCount (scaled : Scaled) : Nat :=
  (Decimal.digits (scaled.numerator / scaled.denominator)).length

/-- A grid of decimals around a scaled value: those without the last `dropped`
places kept. -/
structure Grid where
  scaled : Scaled
  dropped : Nat

namespace Grid

/-- The distance between two decimals of the grid, in units of
`1 / scaled.denominator`. -/
def step (grid : Grid) : Nat :=
  grid.scaled.denominator * Decimal.powerOfTen grid.dropped

/-- The grid's decimal with a given coefficient. -/
def decimal (grid : Grid) (coefficient : Nat) : Decimal :=
  ⟨coefficient, (grid.dropped : Int) - (places : Int)⟩

/-- The greatest coefficient not above the value. -/
def coefficient (grid : Grid) : Nat :=
  grid.scaled.numerator / grid.step

/-- Whether the grid's next decimal above the value is as near as the one below it,
or nearer. -/
def upperIsNearer (grid : Grid) : Bool :=
  (2 * grid.coefficient + 1) * grid.step ≤ 2 * grid.scaled.numerator

/-- The decimal of the grid that reads back as a magnitude. Of two such decimals
the nearer is taken, and the upper one if both are equally near. -/
def readingBack? (grid : Grid) (magnitude : Nat) : Option Decimal :=
  let lower := grid.decimal grid.coefficient
  let upper := grid.decimal (grid.coefficient + 1)
  match lower.toBinary64.magnitude == magnitude,
      upper.toBinary64.magnitude == magnitude with
  | true, true => some (if grid.upperIsNearer then upper else lower)
  | true, false => some lower
  | false, true => some upper
  | false, false => none

end Grid

/-- All digits of a finite magnitude: `2 ^ (-1074) = 5 ^ 1074 * 10 ^ (-1074)`. -/
def exact (magnitude : Nat) : Decimal :=
  ⟨Binary64.unitCount magnitude * Nat.pow 5 1074, -1074⟩

end Shortest

/-- The decimal with the fewest digits that reads back as a finite positive
magnitude, without zeros at its end. -/
def Decimal.shortest (magnitude : Nat) : Decimal :=
  let scaled := Shortest.Scaled.ofMagnitude magnitude
  let digitCount := scaled.digitCount
  let found := (List.range Shortest.maxDigits).findSome? fun others =>
    Shortest.Grid.readingBack? ⟨scaled, digitCount - (others + 1)⟩ magnitude
  (found.getD (Shortest.exact magnitude)).normalize

end LoxScanner
