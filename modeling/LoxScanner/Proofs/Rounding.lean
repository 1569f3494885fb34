import LoxScanner.Number.Binary64
import Mathlib.Algebra.Order.Field.Rat
import Mathlib.Algebra.Order.AbsoluteValue.Basic
import Mathlib.Order.Monotone.Basic
import Mathlib.Tactic.Linarith
import Mathlib.Tactic.Ring
import Mathlib.Tactic.FieldSimp
import Mathlib.Tactic.NormNum

/-!
# Rounding to the nearest value

Magnitudes count the finite values upwards, so rounding is known from the numbers at
which it passes from one magnitude to the next: the midpoints between neighbours, each of
which goes to its even neighbour. `RoundsTo` says this, and that the nearest value is
taken, that rounding is monotone and where it overflows all follow from it.
-/

namespace LoxScanner

namespace Binary64

/-! ## Binades -/

theorem binadeSize_pos : 0 < binadeSize := by decide

theorem binadeSize_even : binadeSize % 2 = 0 := by decide

theorem unitsPerOne_eq : unitsPerOne = 2 ^ 1074 := by
  unfold unitsPerOne
  -- The power would be evaluated if its exponent were in sight.
  generalize 1074 = exponent
  rfl

theorem unitsPerOne_pos : 0 < unitsPerOne := by
  rw [unitsPerOne_eq]
  apply Nat.two_pow_pos

/-- The magnitudes of a binade, and the one after it, are at equal distances. The first
binade goes down to zero. -/
theorem unitCount_binade {binade count : Nat} (atLeast : binade = 0 ∨ binadeSize ≤ count)
    (atMost : count ≤ 2 * binadeSize) :
    unitCount (binade * binadeSize + count) = count * 2 ^ binade := by
  have positive := binadeSize_pos
  by_cases subnormal : count < binadeSize
  · have first : binade = 0 := by omega
    subst first
    have exponentEq : count / binadeSize = 0 := Nat.div_eq_of_lt subnormal
    have fractionEq : count % binadeSize = count := Nat.mod_eq_of_lt subnormal
    rw [Nat.zero_mul, Nat.zero_add, Nat.pow_zero, Nat.mul_one]
    simp only [unitCount, exponentEq, fractionEq, if_pos]
  · by_cases last : count = 2 * binadeSize
    · subst last
      have whole : binade * binadeSize + 2 * binadeSize = (binade + 2) * binadeSize := by ring
      have exponentEq : (binade + 2) * binadeSize / binadeSize = binade + 2 :=
        Nat.mul_div_cancel _ positive
      simp only [unitCount, whole, exponentEq, Nat.mul_mod_left]
      change (binadeSize + 0) * 2 ^ (binade + 1) = _
      ring
    · obtain ⟨fraction, rfl⟩ := Nat.exists_eq_add_of_le (Nat.not_lt.1 subnormal)
      have below : fraction < binadeSize := by omega
      have whole : binade * binadeSize + (binadeSize + fraction) =
          fraction + (binade + 1) * binadeSize := by ring
      have exponentEq : (fraction + (binade + 1) * binadeSize) / binadeSize = binade + 1 := by
        rw [Nat.add_mul_div_right _ _ positive, Nat.div_eq_of_lt below, Nat.zero_add]
      have fractionEq : (fraction + (binade + 1) * binadeSize) % binadeSize = fraction := by
        rw [Nat.add_mul_mod_self_right, Nat.mod_eq_of_lt below]
      simp only [unitCount, whole, exponentEq, fractionEq]
      rfl

theorem exists_binade (magnitude : Nat) :
    ∃ binade count, magnitude = binade * binadeSize + count ∧
      (binade = 0 ∨ binadeSize ≤ count) ∧ count < 2 * binadeSize := by
  have positive := binadeSize_pos
  have whole := Nat.div_add_mod' magnitude binadeSize
  have below := Nat.mod_lt magnitude positive
  cases exponentEq : magnitude / binadeSize with
  | zero =>
      rw [exponentEq] at whole
      exact ⟨0, magnitude, by omega, Or.inl rfl, by omega⟩
  | succ binade =>
      rw [exponentEq, Nat.succ_mul] at whole
      exact ⟨binade, binadeSize + magnitude % binadeSize, by omega, by omega, by omega⟩

theorem unitCount_strictMono : StrictMono unitCount := by
  apply strictMono_nat_of_lt_succ
  intro magnitude
  obtain ⟨binade, count, rfl, atLeast, below⟩ := exists_binade magnitude
  have atLeastNext : binade = 0 ∨ binadeSize ≤ count + 1 := by omega
  rw [Nat.add_assoc, unitCount_binade atLeast (Nat.le_of_lt below),
    unitCount_binade atLeastNext below]
  exact Nat.mul_lt_mul_of_pos_right (Nat.lt_succ_self count) (Nat.two_pow_pos binade)

@[simp]
theorem unitCount_zero : unitCount 0 = 0 := rfl

/-! ## The rounded quotient -/

section RoundDiv

variable {numerator denominator : Nat}

/-- A quotient is rounded to at most `bound` if it is below the number halfway to
`bound + 1`, or at that number and `bound` is even. -/
theorem roundDiv_le_iff (positive : 0 < denominator) {bound : Nat} :
    roundDiv numerator denominator ≤ bound ↔
      2 * numerator < (2 * bound + 1) * denominator ∨
        2 * numerator = (2 * bound + 1) * denominator ∧ bound % 2 = 0 := by
  have whole := Nat.div_add_mod' numerator denominator
  have below := Nat.mod_lt numerator positive
  have halfway : (2 * bound + 1) * denominator = 2 * (bound * denominator) + denominator := by
    ring
  rw [halfway]
  unfold roundDiv
  dsimp only
  generalize numerator / denominator = quotient at *
  generalize numerator % denominator = remainder at *
  rcases Nat.lt_trichotomy bound quotient with less | rfl | greater
  · have room : (bound + 1) * denominator ≤ quotient * denominator :=
      Nat.mul_le_mul_right denominator less
    rw [Nat.succ_mul] at room
    split_ifs <;> omega
  · split_ifs <;> omega
  · have room : (quotient + 1) * denominator ≤ bound * denominator :=
      Nat.mul_le_mul_right denominator greater
    rw [Nat.succ_mul] at room
    split_ifs <;> omega

theorem le_roundDiv : numerator / denominator ≤ roundDiv numerator denominator := by
  unfold roundDiv
  dsimp only
  split_ifs <;> omega

theorem roundDiv_le : roundDiv numerator denominator ≤ numerator / denominator + 1 := by
  unfold roundDiv
  dsimp only
  split_ifs <;> omega

end RoundDiv

/-! ## The nearest magnitude -/

/-- A quotient in units of the spacing of its binade. Only in the first binade is it below
the binade's size. -/
theorem binade_bounds (quotient : Nat) :
    (quotient.log2 - fractionBits = 0 ∨
        binadeSize ≤ quotient / 2 ^ (quotient.log2 - fractionBits)) ∧
      quotient / 2 ^ (quotient.log2 - fractionBits) < 2 * binadeSize := by
  have sizeEq : binadeSize = 2 ^ fractionBits := rfl
  generalize binadeEq : quotient.log2 - fractionBits = binade
  constructor
  · by_cases first : binade = 0
    · exact Or.inl first
    · have notZero : quotient ≠ 0 := by
        rintro rfl
        rw [Nat.log2_zero, Nat.zero_sub] at binadeEq
        exact first binadeEq.symm
      have logEq : fractionBits + binade = quotient.log2 := by omega
      have reached := Nat.log2_self_le notZero
      rw [← logEq, Nat.pow_add, ← sizeEq] at reached
      exact Or.inr ((Nat.le_div_iff_mul_le (Nat.two_pow_pos binade)).2 reached)
  · have within : quotient.log2 + 1 ≤ 1 + fractionBits + binade := by omega
    rw [Nat.div_lt_iff_lt_mul (Nat.two_pow_pos binade)]
    calc
      quotient < 2 ^ (quotient.log2 + 1) := Nat.lt_log2_self
      _ ≤ 2 ^ (1 + fractionBits + binade) := Nat.pow_le_pow_right (by decide) within
      _ = 2 * binadeSize * 2 ^ binade := by rw [Nat.pow_add, Nat.pow_add, sizeEq, Nat.pow_one]

section NearestMagnitude

variable {numerator scaled denominator : Nat}

/-- A number rounded in its binade is rounded between any two neighbours: the magnitudes
below the binade are too small for it and those above too great. -/
theorem rounded_le_iff {binade : Nat} (positive : 0 < denominator)
    (atLeast : binade = 0 ∨ binadeSize ≤ scaled / (denominator * 2 ^ binade))
    (below : scaled / (denominator * 2 ^ binade) < 2 * binadeSize) (bound : Nat) :
    binade * binadeSize + roundDiv scaled (denominator * 2 ^ binade) ≤ bound ↔
      2 * scaled < (unitCount bound + unitCount (bound + 1)) * denominator ∨
        2 * scaled = (unitCount bound + unitCount (bound + 1)) * denominator ∧
          bound % 2 = 0 := by
  have spacingPositive : 0 < denominator * 2 ^ binade :=
    Nat.mul_pos positive (Nat.two_pow_pos binade)
  have fromQuotient := @le_roundDiv scaled (denominator * 2 ^ binade)
  have toQuotient := @roundDiv_le scaled (denominator * 2 ^ binade)
  have increasing : unitCount bound < unitCount (bound + 1) :=
    unitCount_strictMono (Nat.lt_succ_self bound)
  by_cases early : binade ≠ 0 ∧ bound + 1 ≤ binade * binadeSize + binadeSize
  · obtain ⟨later, before⟩ := early
    have large : binadeSize ≤ scaled / (denominator * 2 ^ binade) := atLeast.resolve_left later
    have upTo : unitCount (bound + 1) ≤ binadeSize * 2 ^ binade := by
      rw [← unitCount_binade (Or.inr (Nat.le_refl binadeSize)) (by omega)]
      exact unitCount_strictMono.monotone before
    have exceeds : (unitCount bound + unitCount (bound + 1)) * denominator < 2 * scaled := by
      calc
        (unitCount bound + unitCount (bound + 1)) * denominator <
            (binadeSize * 2 ^ binade + binadeSize * 2 ^ binade) * denominator :=
          Nat.mul_lt_mul_of_pos_right (by omega) positive
        _ = 2 * (binadeSize * (denominator * 2 ^ binade)) := by ring
        _ ≤ 2 * scaled :=
          Nat.mul_le_mul_left 2 ((Nat.le_div_iff_mul_le spacingPositive).1 large)
    omega
  · by_cases late : binade * binadeSize + 2 * binadeSize ≤ bound
    · have from' : 2 * binadeSize * 2 ^ binade ≤ unitCount bound := by
        rw [← unitCount_binade (Or.inr (by omega)) (Nat.le_refl (2 * binadeSize))]
        exact unitCount_strictMono.monotone late
      have exceeded : 2 * scaled < (unitCount bound + unitCount (bound + 1)) * denominator := by
        calc
          2 * scaled < 2 * (2 * binadeSize * (denominator * 2 ^ binade)) :=
            Nat.mul_lt_mul_of_pos_left ((Nat.div_lt_iff_lt_mul spacingPositive).1 below)
              (by decide)
          _ = (2 * binadeSize * 2 ^ binade + 2 * binadeSize * 2 ^ binade) * denominator := by
            ring
          _ ≤ (unitCount bound + unitCount (bound + 1)) * denominator :=
            Nat.mul_le_mul_right denominator (by omega)
      omega
    · obtain ⟨count, rfl⟩ : ∃ count, bound = binade * binadeSize + count := by
        refine Nat.exists_eq_add_of_le ?_
        by_cases first : binade = 0
        · subst first
          omega
        · omega
      have within : binade = 0 ∨ binadeSize ≤ count := by omega
      have withinNext : binade = 0 ∨ binadeSize ≤ count + 1 := by omega
      have halfway : (unitCount (binade * binadeSize + count) +
          unitCount (binade * binadeSize + count + 1)) * denominator =
            (2 * count + 1) * (denominator * 2 ^ binade) := by
        rw [Nat.add_assoc, unitCount_binade within (by omega),
          unitCount_binade withinNext (by omega)]
        ring
      have parity : (binade * binadeSize + count) % 2 = count % 2 := by
        rw [Nat.add_mod, Nat.mul_mod, binadeSize_even]
        simp
      rw [halfway, parity, Nat.add_le_add_iff_left, roundDiv_le_iff spacingPositive]

/-- The nearest magnitude is at most a finite one if the number is below the midpoint after
that, or at the midpoint and the magnitude is even. -/
theorem nearestMagnitude_le_iff (positive : 0 < denominator) {bound : Nat}
    (finite : bound < infiniteMagnitude) :
    nearestMagnitude numerator denominator ≤ bound ↔
      2 * (numerator * unitsPerOne) <
          (unitCount bound + unitCount (bound + 1)) * denominator ∨
        2 * (numerator * unitsPerOne) =
            (unitCount bound + unitCount (bound + 1)) * denominator ∧
          bound % 2 = 0 := by
  have bounds := binade_bounds (numerator * unitsPerOne / denominator)
  rw [Nat.div_div_eq_div_mul] at bounds
  rw [← rounded_le_iff positive bounds.1 bounds.2]
  have notInfinite : ¬ infiniteMagnitude ≤ bound := Nat.not_le.2 finite
  exact min_le_iff.trans (or_iff_right notInfinite)

end NearestMagnitude

/-! ## Midpoints -/

/-- The number that a finite magnitude stands for. -/
def amount (magnitude : Nat) : ℚ :=
  unitCount magnitude / unitsPerOne

/-- The number halfway between a magnitude and the next. -/
def midpoint (magnitude : Nat) : ℚ :=
  (amount magnitude + amount (magnitude + 1)) / 2

theorem cast_unitsPerOne_pos : (0 : ℚ) < unitsPerOne :=
  Nat.cast_pos.2 unitsPerOne_pos

theorem amount_strictMono : StrictMono amount := by
  intro lower upper less
  have unitsLess : (unitCount lower : ℚ) < unitCount upper :=
    Nat.cast_lt.2 (unitCount_strictMono less)
  exact div_lt_div_of_pos_right unitsLess cast_unitsPerOne_pos

@[simp]
theorem amount_zero : amount 0 = 0 := by
  rw [amount, unitCount_zero, Nat.cast_zero, zero_div]

theorem amount_nonneg (magnitude : Nat) : 0 ≤ amount magnitude := by
  rw [← amount_zero]
  exact amount_strictMono.monotone (Nat.zero_le magnitude)

theorem amount_lt_midpoint (magnitude : Nat) : amount magnitude < midpoint magnitude := by
  have increasing := amount_strictMono (Nat.lt_succ_self magnitude)
  unfold midpoint
  linarith

theorem midpoint_lt_amount {magnitude other : Nat} (less : magnitude < other) :
    midpoint magnitude < amount other := by
  have increasing := amount_strictMono (Nat.lt_succ_self magnitude)
  have upTo : amount (magnitude + 1) ≤ amount other := amount_strictMono.monotone less
  unfold midpoint
  linarith

theorem cast_unitsPerOne : (unitsPerOne : ℚ) = 2 ^ 1074 := by
  rw [unitsPerOne_eq, Nat.cast_pow, Nat.cast_two]

theorem amount_binade {binade count : Nat} (atLeast : binade = 0 ∨ binadeSize ≤ count)
    (atMost : count ≤ 2 * binadeSize) :
    amount (binade * binadeSize + count) = count * 2 ^ binade / 2 ^ 1074 := by
  rw [amount, unitCount_binade atLeast atMost, cast_unitsPerOne, Nat.cast_mul, Nat.cast_pow,
    Nat.cast_two]

theorem midpoint_zero : midpoint 0 = 1 / 2 ^ 1075 := by
  have least : amount (0 + 1) = 1 / 2 ^ 1074 := by
    have first := @amount_binade 0 1 (Or.inl rfl) (by decide)
    rw [Nat.zero_mul, Nat.cast_one, pow_zero, mul_one] at first
    exact first
  rw [midpoint, least, amount_zero, zero_add, div_div, ← pow_succ]

/-- The number from which on rounding overflows. -/
theorem midpoint_last : midpoint (infiniteMagnitude - 1) = 2 ^ 1024 - 2 ^ 970 := by
  have last : amount (infiniteMagnitude - 1) =
      ((2 * binadeSize - 1 : Nat) : ℚ) * 2 ^ 2045 / 2 ^ 1074 :=
    @amount_binade 2045 (2 * binadeSize - 1) (Or.inr (by decide)) (by decide)
  have next : amount (infiniteMagnitude - 1 + 1) = (binadeSize : ℚ) * 2 ^ 2046 / 2 ^ 1074 :=
    @amount_binade 2046 binadeSize (Or.inr (by decide)) (by decide)
  have sizeEq : (binadeSize : ℚ) = 2 ^ 52 := by
    norm_num [binadeSize, fractionBits]
  have countEq : ((2 * binadeSize - 1 : Nat) : ℚ) = 2 ^ 53 - 1 := by
    norm_num [binadeSize, fractionBits]
  have lastPower : (2 : ℚ) ^ 2045 = 2 * 2 ^ 970 * 2 ^ 1074 := by
    rw [← pow_succ', ← pow_add]
  have nextPower : (2 : ℚ) ^ 2046 = 2 * (2 * 2 ^ 970) * 2 ^ 1074 := by
    rw [← pow_succ', ← pow_succ', ← pow_add]
  have overflow : (2 : ℚ) ^ 1024 = 2 ^ 54 * 2 ^ 970 := by
    rw [← pow_add]
  have unitsPositive : (0 : ℚ) < 2 ^ 1074 := pow_pos two_pos 1074
  rw [midpoint, last, next, countEq, sizeEq, lastPower, nextPower, overflow]
  generalize (2 : ℚ) ^ 1074 = units at *
  generalize (2 : ℚ) ^ 970 = ulp at *
  field_simp
  ring

/-- Rounding a number gives a magnitude if that passes each midpoint on the side on which
the number is, and a midpoint itself on the side of its even neighbour. -/
structure RoundsTo (number : ℚ) (magnitude : Nat) : Prop where
  le_infinite : magnitude ≤ infiniteMagnitude
  le_iff : ∀ bound < infiniteMagnitude, magnitude ≤ bound ↔
    number < midpoint bound ∨ number = midpoint bound ∧ bound % 2 = 0

theorem roundsTo_nearestMagnitude (numerator : Nat) {denominator : Nat}
    (positive : 0 < denominator) :
    RoundsTo (numerator / denominator) (nearestMagnitude numerator denominator) := by
  refine ⟨Nat.min_le_left _ _, ?_⟩
  intro bound finite
  have castPositive : (0 : ℚ) < denominator := Nat.cast_pos.2 positive
  have unitsPositive := cast_unitsPerOne_pos
  rw [nearestMagnitude_le_iff positive finite]
  unfold midpoint amount
  generalize unitsPerOne = units at *
  have doubled : (0 : ℚ) < 2 * units := mul_pos two_pos unitsPositive
  have midpointEq : ((unitCount bound : ℚ) / units + unitCount (bound + 1) / units) / 2 =
      ((unitCount bound + unitCount (bound + 1) : Nat) : ℚ) / (2 * units) := by
    rw [Nat.cast_add]
    field_simp
  have crossed : (numerator : ℚ) * (2 * units) = ((2 * (numerator * units) : Nat) : ℚ) := by
    push_cast
    ring
  rw [midpointEq, div_lt_div_iff₀ castPositive doubled,
    div_eq_div_iff castPositive.ne' doubled.ne', crossed]
  norm_cast

namespace RoundsTo

variable {number other : ℚ} {magnitude rounded : Nat}

theorem mono (rounds : RoundsTo number magnitude) (otherRounds : RoundsTo other rounded)
    (atMost : number ≤ other) : magnitude ≤ rounded := by
  by_cases finite : rounded < infiniteMagnitude
  · rw [rounds.le_iff rounded finite]
    rcases (otherRounds.le_iff rounded finite).1 (Nat.le_refl rounded) with below | ⟨tie, even⟩
    · exact Or.inl (lt_of_le_of_lt atMost below)
    · rcases lt_or_eq_of_le (tie ▸ atMost) with below | atMidpoint
      · exact Or.inl below
      · exact Or.inr ⟨atMidpoint, even⟩
  · exact Nat.le_trans rounds.le_infinite (Nat.not_lt.1 finite)

theorem unique (rounds : RoundsTo number magnitude) (alsoRounds : RoundsTo number rounded) :
    magnitude = rounded :=
  Nat.le_antisymm (rounds.mono alsoRounds le_rfl) (alsoRounds.mono rounds le_rfl)

/-- What a magnitude stands for is rounded to that magnitude. -/
theorem of_amount (atMost : magnitude ≤ infiniteMagnitude) :
    RoundsTo (amount magnitude) magnitude := by
  refine ⟨atMost, ?_⟩
  intro bound _
  constructor
  · intro within
    have upTo : amount magnitude ≤ amount bound :=
      amount_strictMono.monotone within
    exact Or.inl (lt_of_le_of_lt upTo (amount_lt_midpoint bound))
  · intro before
    by_contra beyond
    have passed := midpoint_lt_amount (Nat.not_le.1 beyond)
    rcases before with below | ⟨tie, _⟩
    · exact lt_asymm below passed
    · exact passed.ne tie.symm

/-! ### What is nearest -/

theorem le_midpoint (rounds : RoundsTo number magnitude) (finite : magnitude < infiniteMagnitude) :
    number ≤ midpoint magnitude ∧ (number = midpoint magnitude → magnitude % 2 = 0) := by
  rcases (rounds.le_iff magnitude finite).1 (Nat.le_refl magnitude) with below | ⟨tie, even⟩
  · exact ⟨below.le, fun tie => absurd tie below.ne⟩
  · exact ⟨tie.le, fun _ => even⟩

theorem midpoint_le {before : Nat} (rounds : RoundsTo number (before + 1)) :
    midpoint before ≤ number ∧ (number = midpoint before → (before + 1) % 2 = 0) := by
  have finite : before < infiniteMagnitude := rounds.le_infinite
  have beyond := mt (rounds.le_iff before finite).2 (Nat.not_succ_le_self before)
  rw [not_or, not_lt, not_and] at beyond
  obtain ⟨atLeast, odd⟩ := beyond
  refine ⟨atLeast, ?_⟩
  intro tie
  have notEven := odd tie
  omega

/-- No other finite magnitude is nearer to the number, and if another is as near the
rounded one is even. -/
theorem nearest (rounds : RoundsTo number magnitude) (finite : magnitude < infiniteMagnitude)
    (different : rounded ≠ magnitude) :
    |amount magnitude - number| ≤ |amount rounded - number| ∧
      (|amount magnitude - number| = |amount rounded - number| →
        magnitude % 2 = 0) := by
  rcases Nat.lt_or_gt_of_ne different with less | greater
  · obtain ⟨before, rfl⟩ := Nat.exists_eq_succ_of_ne_zero (Nat.ne_zero_of_lt less)
    obtain ⟨atLeast, even⟩ := rounds.midpoint_le
    have upTo : amount rounded ≤ amount before :=
      amount_strictMono.monotone (Nat.le_of_lt_succ less)
    have increasing := amount_strictMono (Nat.lt_succ_self before)
    have halfway : midpoint before * 2 =
        amount before + amount (before + 1) := by
      unfold midpoint
      ring
    have otherSide : |amount rounded - number| = number - amount rounded := by
      rw [abs_sub_comm]
      exact abs_of_nonneg (by linarith)
    rw [otherSide]
    refine ⟨abs_le.2 ⟨by linarith, by linarith⟩, ?_⟩
    intro equallyNear
    apply even
    rcases abs_cases (amount (before + 1) - number) with ⟨distance, _⟩ | ⟨distance, _⟩
    · linarith
    · linarith
  · obtain ⟨atMost, even⟩ := rounds.le_midpoint finite
    have upTo : amount (magnitude + 1) ≤ amount rounded :=
      amount_strictMono.monotone greater
    have increasing := amount_strictMono (Nat.lt_succ_self magnitude)
    have halfway : midpoint magnitude * 2 =
        amount magnitude + amount (magnitude + 1) := by
      unfold midpoint
      ring
    have otherSide : |amount rounded - number| = amount rounded - number :=
      abs_of_nonneg (by linarith)
    rw [otherSide]
    refine ⟨abs_le.2 ⟨by linarith, by linarith⟩, ?_⟩
    intro equallyNear
    apply even
    rcases abs_cases (amount magnitude - number) with ⟨distance, _⟩ | ⟨distance, _⟩
    · linarith
    · linarith

/-! ### Where rounding ends -/

theorem eq_zero_iff (rounds : RoundsTo number magnitude) :
    magnitude = 0 ↔ number ≤ 1 / 2 ^ 1075 := by
  rw [← Nat.le_zero, rounds.le_iff 0 (by decide), midpoint_zero, le_iff_lt_or_eq]
  exact or_congr_right (and_iff_left rfl)

theorem eq_infinite_iff (rounds : RoundsTo number magnitude) :
    magnitude = infiniteMagnitude ↔ 2 ^ 1024 - 2 ^ 970 ≤ number := by
  have atMost := rounds.le_infinite
  have finite : infiniteMagnitude - 1 < infiniteMagnitude := by decide
  have odd : ¬ (infiniteMagnitude - 1) % 2 = 0 := by decide
  have below : magnitude ≤ infiniteMagnitude - 1 ↔ number < 2 ^ 1024 - 2 ^ 970 := by
    rw [rounds.le_iff _ finite, midpoint_last]
    exact or_iff_left fun tie => odd tie.2
  rw [← not_lt, ← below]
  omega

end RoundsTo

/-! ## Values -/

/-- The positive infinity. -/
def infinity : Binary64 :=
  ofMagnitude infiniteMagnitude

def IsFinite (value : Binary64) : Prop :=
  value.magnitude < infiniteMagnitude

/-- The number that a finite value stands for. -/
def toRat (value : Binary64) : ℚ :=
  if value.isNegative then -amount value.magnitude else amount value.magnitude

/-- The place of a value that is no NaN and not negative in the order of the numbers, with
infinity above all of them. -/
def extended (value : Binary64) : WithTop ℚ :=
  if value.magnitude < infiniteMagnitude then (value.toRat : WithTop ℚ) else ⊤

section OfMagnitude

variable {magnitude : Nat}

theorem toNat_bits_ofMagnitude (atMost : magnitude ≤ infiniteMagnitude) :
    (ofMagnitude magnitude).bits.toNat = magnitude := by
  have small : infiniteMagnitude < UInt64.size := by decide
  exact UInt64.toNat_ofNat_of_lt' (Nat.lt_of_le_of_lt atMost small)

theorem magnitude_ofMagnitude (atMost : magnitude ≤ infiniteMagnitude) :
    (ofMagnitude magnitude).magnitude = magnitude := by
  have small : infiniteMagnitude < signWeight := by decide
  rw [Binary64.magnitude, toNat_bits_ofMagnitude atMost]
  exact Nat.mod_eq_of_lt (Nat.lt_of_le_of_lt atMost small)

theorem isNegative_ofMagnitude (atMost : magnitude ≤ infiniteMagnitude) :
    (ofMagnitude magnitude).isNegative = false := by
  have small : infiniteMagnitude < signWeight := by decide
  rw [isNegative, toNat_bits_ofMagnitude atMost]
  exact decide_eq_false (Nat.not_le.2 (Nat.lt_of_le_of_lt atMost small))

theorem isNaN_ofMagnitude (atMost : magnitude ≤ infiniteMagnitude) :
    (ofMagnitude magnitude).isNaN = false := by
  rw [isNaN, magnitude_ofMagnitude atMost]
  exact decide_eq_false (Nat.not_lt.2 atMost)

theorem toRat_ofMagnitude (atMost : magnitude ≤ infiniteMagnitude) :
    (ofMagnitude magnitude).toRat = amount magnitude := by
  simp [toRat, isNegative_ofMagnitude atMost, magnitude_ofMagnitude atMost]

theorem ofMagnitude_inj {other : Nat} (atMost : magnitude ≤ infiniteMagnitude)
    (otherAtMost : other ≤ infiniteMagnitude) :
    ofMagnitude magnitude = ofMagnitude other ↔ magnitude = other := by
  constructor
  · intro same
    rw [← magnitude_ofMagnitude atMost, same, magnitude_ofMagnitude otherAtMost]
  · rintro rfl
    rfl

end OfMagnitude

theorem extended_ofMagnitude_mono {lower upper : Nat} (atMost : upper ≤ infiniteMagnitude)
    (less : lower ≤ upper) : (ofMagnitude lower).extended ≤ (ofMagnitude upper).extended := by
  have lowerAtMost : lower ≤ infiniteMagnitude := Nat.le_trans less atMost
  unfold extended
  rw [magnitude_ofMagnitude atMost, magnitude_ofMagnitude lowerAtMost]
  by_cases finite : upper < infiniteMagnitude
  · rw [if_pos finite, if_pos (Nat.lt_of_le_of_lt less finite), toRat_ofMagnitude atMost,
      toRat_ofMagnitude lowerAtMost]
    exact WithTop.coe_le_coe.2 (amount_strictMono.monotone less)
  · rw [if_neg finite]
    exact le_top

/-- A value that a number which is not negative is rounded to. No finite value is nearer,
and of two values as near the one with an even significand is taken. -/
structure NearestTo (value : Binary64) (number : ℚ) : Prop where
  not_nan : value.isNaN = false
  not_negative : value.isNegative = false
  nearest : value.IsFinite → ∀ other : Binary64, other.IsFinite →
    |value.toRat - number| ≤ |other.toRat - number|
  even : value.IsFinite → ∀ other : Binary64, other.IsFinite → other.toRat ≠ value.toRat →
    |value.toRat - number| = |other.toRat - number| → value.magnitude % 2 = 0
  infinite_iff : value = infinity ↔ 2 ^ 1024 - 2 ^ 970 ≤ number
  zero_iff : value = ofMagnitude 0 ↔ number ≤ 1 / 2 ^ 1075

section NotNegative

variable {number : ℚ} (notNegative : 0 ≤ number)
include notNegative

theorem abs_amount_sub_le (other : Binary64) :
    |amount other.magnitude - number| ≤ |other.toRat - number| := by
  have amountNonneg := amount_nonneg other.magnitude
  unfold toRat
  split_ifs
  · have opposite : |-amount other.magnitude - number| = amount other.magnitude + number := by
      rw [abs_sub_comm, sub_neg_eq_add, add_comm]
      exact abs_of_nonneg (add_nonneg amountNonneg notNegative)
    rw [opposite]
    exact abs_le.2 ⟨by linarith, by linarith⟩
  · exact le_rfl

namespace RoundsTo

variable {magnitude : Nat} (rounds : RoundsTo number magnitude)
include rounds

theorem abs_sub_le (finite : magnitude < infiniteMagnitude) (other : Binary64) :
    |amount magnitude - number| ≤ |other.toRat - number| := by
  refine le_trans ?_ (abs_amount_sub_le notNegative other)
  by_cases same : other.magnitude = magnitude
  · rw [same]
  · exact (rounds.nearest finite same).1

theorem even_of_abs_sub_eq (finite : magnitude < infiniteMagnitude) {other : Binary64}
    (different : other.toRat ≠ amount magnitude)
    (equallyNear : |amount magnitude - number| = |other.toRat - number|) :
    magnitude % 2 = 0 := by
  by_cases same : other.magnitude = magnitude
  · -- The other is the opposite value, and only zero is as near to both.
    have opposite : other.toRat = -amount magnitude := by
      unfold toRat at different ⊢
      rw [same] at different ⊢
      split_ifs at different ⊢
      · rfl
      · exact absurd rfl different
    have atZero : number ≤ 1 / 2 ^ 1075 := by
      rw [opposite] at different equallyNear
      have numberEq : number = 0 := by
        rcases (abs_eq_abs).1 equallyNear with equal | mirrored
        · exact absurd (by linarith) different.symm
        · linarith
      rw [numberEq, ← midpoint_zero, ← amount_zero]
      exact (amount_lt_midpoint 0).le
    rw [rounds.eq_zero_iff.2 atZero]
  · have sandwiched : |amount magnitude - number| = |amount other.magnitude - number| := by
      apply le_antisymm (rounds.nearest finite same).1
      rw [equallyNear]
      exact abs_amount_sub_le notNegative other
    exact (rounds.nearest finite same).2 sandwiched

/-- Rounding to the nearest magnitude is rounding to the nearest of all values, those below
zero included. -/
theorem nearestTo : (ofMagnitude magnitude).NearestTo number where
  not_nan := isNaN_ofMagnitude rounds.le_infinite
  not_negative := isNegative_ofMagnitude rounds.le_infinite
  nearest finite other _ := by
    rw [IsFinite, magnitude_ofMagnitude rounds.le_infinite] at finite
    rw [toRat_ofMagnitude rounds.le_infinite]
    exact rounds.abs_sub_le notNegative finite other
  even finite other _ different equallyNear := by
    rw [IsFinite, magnitude_ofMagnitude rounds.le_infinite] at finite
    rw [toRat_ofMagnitude rounds.le_infinite] at different equallyNear
    rw [magnitude_ofMagnitude rounds.le_infinite]
    exact rounds.even_of_abs_sub_eq notNegative finite different equallyNear
  infinite_iff := by
    rw [infinity, ofMagnitude_inj rounds.le_infinite le_rfl, rounds.eq_infinite_iff]
  zero_iff := by
    rw [ofMagnitude_inj rounds.le_infinite (Nat.zero_le _), rounds.eq_zero_iff]

end RoundsTo

end NotNegative

end Binary64

end LoxScanner
