import LoxScanner.Number.Layout
import LoxScanner.Proofs.NumberLiterals

/-!
# Printed numbers

The shortest decimal of a value lies where numbers are rounded to that value, and so do the
digits printed with a point. They are a numeral, so that a scan reads them as one number,
with the value they were printed for.
-/

namespace LoxScanner

open Binary64 (RoundsTo amount infiniteMagnitude)

/-! ## Decimals -/

namespace Decimal

theorem toRat_normalize (decimal : Decimal) : decimal.normalize.toRat = decimal.toRat := by
  induction decimal using normalize.induct with
  | case1 decimal divides ih =>
      have whole : decimal.coefficient = 10 * (decimal.coefficient / 10) := by omega
      have castWhole : (decimal.coefficient : ℚ) = 10 * (decimal.coefficient / 10 : Nat) := by
        exact_mod_cast whole
      have notZero : (10 : ℚ) ≠ 0 := by norm_num
      rw [normalize, dif_pos divides, ih, toRat, toRat, castWhole, zpow_add₀ notZero, zpow_one]
      ring
  | case2 decimal atEnd => rw [normalize, dif_neg atEnd]

theorem ofDigits_digits (number : Nat) : ofDigits (digits number) = number :=
  Nat.ofDigitChars_ten_toDigits

theorem isDigit_of_mem_digits {number : Nat} {c : Char} (member : c ∈ digits number) :
    c.isDigit = true :=
  Nat.isDigit_of_mem_toDigits (by decide) (by decide) member

end Decimal

/-! ## Digits with a point -/

namespace NumberLayout

/-- What is written with a point is a numeral for the same number. -/
structure Writes (numeral : Numeral) (decimal : Decimal) : Prop where
  wellFormed : numeral.WellFormed
  text_eq : positional decimal = numeral.text
  toRat_eq : numeral.toRat = decimal.toRat

variable {decimal : Decimal}

theorem writes_of_nonneg (nonneg : 0 ≤ decimal.exponent) :
    Writes ⟨Decimal.digits decimal.coefficient ++ List.replicate decimal.exponent.toNat '0',
      ['0']⟩ decimal where
  wellFormed := by
    refine ⟨List.append_ne_nil_of_left_ne_nil Nat.toDigits_ne_nil _, ?_, by simp⟩
    exact List.forall_mem_append.2
      ⟨fun _ => Decimal.isDigit_of_mem_digits, fun _ => Decimal.isDigit_of_mem_zeros⟩
  text_eq := if_pos nonneg
  toRat_eq := by
    have exponentEq : (10 : ℚ) ^ decimal.exponent = 10 ^ decimal.exponent.toNat := by
      rw [← zpow_natCast, Int.toNat_of_nonneg nonneg]
    have zeroDigit : Decimal.ofDigits ['0'] = 0 := rfl
    rw [Numeral.toRat, Decimal.toRat, exponentEq, zeroDigit, Decimal.ofDigits_append,
      Decimal.ofDigits_replicate_zero, Decimal.ofDigits_digits, List.length_replicate]
    push_cast
    ring

/-- Digits cut before their last `places`. -/
def cutNumeral (places : Nat) (digits : List Char) : Numeral :=
  ⟨digits.take (digits.length - places), digits.drop (digits.length - places)⟩

theorem decimal_cutNumeral {places : Nat} {digits : List Char} (atMost : places ≤ digits.length) :
    (cutNumeral places digits).decimal = ⟨Decimal.ofDigits digits, -(places : Int)⟩ := by
  have fractionLength : digits.length - (digits.length - places) = places := by omega
  rw [cutNumeral, Numeral.decimal, List.take_append_drop, List.length_drop, fractionLength]

theorem text_cutNumeral {places : Nat} {digits : List Char} (positive : 0 < places)
    (atMost : places ≤ digits.length) :
    (cutNumeral places digits).text =
      digits.take (digits.length - places) ++ '.' :: digits.drop (digits.length - places) := by
  have notAll : digits.length - places < digits.length := by omega
  rw [cutNumeral, Numeral.text, List.drop_eq_getElem_cons notAll]

theorem wellFormed_cutNumeral {places : Nat} {digits : List Char}
    (allDigits : ∀ c ∈ digits, c.isDigit = true) (less : places < digits.length) :
    (cutNumeral places digits).WellFormed := by
  refine ⟨?_, fun c member => allDigits c (List.mem_of_mem_take member),
    fun c member => allDigits c (List.mem_of_mem_drop member)⟩
  intro nothing
  have noLength : (digits.take (digits.length - places)).length = 0 :=
    congrArg List.length nothing
  rw [List.length_take] at noLength
  omega

theorem exists_writes_of_neg (negative : decimal.exponent < 0) :
    ∃ numeral, Writes numeral decimal := by
  obtain ⟨places, exponentEq⟩ := Int.eq_ofNat_of_zero_le (a := -decimal.exponent) (by omega)
  have placesEq : (-decimal.exponent).toNat = places := by omega
  let padded := List.replicate (places + 1 - (Decimal.digits decimal.coefficient).length) '0' ++
    Decimal.digits decimal.coefficient
  have less : places < padded.length := by
    rw [List.length_append, List.length_replicate]
    omega
  have allDigits : ∀ c ∈ padded, c.isDigit = true :=
    List.forall_mem_append.2
      ⟨fun _ => Decimal.isDigit_of_mem_zeros, fun _ => Decimal.isDigit_of_mem_digits⟩
  have valueEq : Decimal.ofDigits padded = decimal.coefficient := by
    rw [Decimal.ofDigits_append, Decimal.ofDigits_replicate_zero, Decimal.ofDigits_digits,
      Nat.mul_zero, Nat.zero_add]
  refine ⟨cutNumeral places padded, wellFormed_cutNumeral allDigits less, ?_, ?_⟩
  · rw [text_cutNumeral (by omega) less.le, positional, if_neg (by omega), placesEq]
  · have exponentIs : -(places : Int) = decimal.exponent := by omega
    rw [← Numeral.toRat_decimal, decimal_cutNumeral less.le, valueEq, exponentIs]

theorem exists_writes (decimal : Decimal) : ∃ numeral, Writes numeral decimal := by
  by_cases nonneg : 0 ≤ decimal.exponent
  · exact ⟨_, writes_of_nonneg nonneg⟩
  · exact exists_writes_of_neg (by omega)

end NumberLayout

/-! ## Shortest decimals -/

namespace Shortest

theorem toRat_mul_pow_five (coefficient count : Nat) :
    Decimal.toRat ⟨coefficient * Nat.pow 5 count, -(count : Int)⟩ = coefficient / 2 ^ count := by
  have tenPower : (10 : ℚ) ^ count = 2 ^ count * 5 ^ count := by
    rw [← mul_pow]
    norm_num
  rw [Decimal.toRat, zpow_neg, zpow_natCast, tenPower, Nat.pow_eq]
  push_cast
  field_simp

theorem toRat_exact (magnitude : Nat) : (exact magnitude).toRat = amount magnitude := by
  have exponentEq : (-1074 : Int) = -((1074 : Nat) : Int) := rfl
  rw [amount, Binary64.cast_unitsPerOne, exact, exponentEq]
  -- The powers would be evaluated if their exponent were in sight.
  generalize 1074 = exponent
  exact toRat_mul_pow_five _ exponent

/-- The definition as an equation of functions. Where it is unfolded at its arguments
instead, the kernel computes with the magnitudes that are compared. -/
theorem Grid.readingBack?_eq :
    readingBack? = fun grid magnitude =>
      let lower := grid.decimal grid.coefficient
      let upper := grid.decimal (grid.coefficient + 1)
      match lower.toBinary64.magnitude == magnitude,
          upper.toBinary64.magnitude == magnitude with
      | true, true => some (if grid.upperIsNearer then upper else lower)
      | true, false => some lower
      | false, true => some upper
      | false, false => none := by
  delta readingBack?
  rfl

theorem Grid.magnitude_of_readingBack? {grid : Grid} {magnitude : Nat} {decimal : Decimal}
    (found : grid.readingBack? magnitude = some decimal) :
    decimal.toBinary64.magnitude = magnitude := by
  rw [readingBack?_eq] at found
  dsimp only at found
  generalize lowerReads : ((grid.decimal grid.coefficient).toBinary64.magnitude ==
    magnitude) = lower at found
  generalize upperReads : ((grid.decimal (grid.coefficient + 1)).toBinary64.magnitude ==
    magnitude) = upper at found
  split at found
  next =>
    rw [← Option.some.inj found]
    split_ifs
    · exact eq_of_beq upperReads
    · exact eq_of_beq lowerReads
  next =>
    rw [← Option.some.inj found]
    exact eq_of_beq lowerReads
  next =>
    rw [← Option.some.inj found]
    exact eq_of_beq upperReads
  next => cases found

end Shortest

/-- The shortest decimal of a magnitude is rounded to it. -/
theorem Decimal.roundsTo_shortest {magnitude : Nat} (atMost : magnitude ≤ infiniteMagnitude) :
    RoundsTo (shortest magnitude).toRat magnitude := by
  unfold shortest
  dsimp only
  rw [toRat_normalize]
  cases isFound : (List.range Shortest.maxDigits).findSome? _ with
  | none =>
      rw [Option.getD_none, Shortest.toRat_exact]
      exact RoundsTo.of_amount atMost
  | some decimal =>
      obtain ⟨others, -, readsBack⟩ := List.exists_of_findSome?_eq_some isFound
      have rounds := decimal.roundsTo_toBinary64
      rw [Shortest.Grid.magnitude_of_readingBack? readsBack] at rounds
      exact rounds

/-! ## Texts of values -/

theorem Binary64.amount_eq_of_unitCount_eq {magnitude whole : Nat}
    (units : unitCount magnitude = whole * unitsPerOne) : amount magnitude = whole := by
  rw [amount, units, Nat.cast_mul, mul_div_cancel_right₀ _ cast_unitsPerOne_pos.ne']

namespace NumberLayout

variable {magnitude : Nat}

/-- The digits printed for a magnitude with a point are a numeral that is rounded to it. -/
theorem exists_numeral_of_isPositional {layout : NumberLayout}
    (finite : magnitude < infiniteMagnitude) (isPositional : layout.isPositional magnitude = true) :
    ∃ numeral : Numeral, numeral.WellFormed ∧ layout.magnitudeText magnitude = numeral.text ∧
      numeral.value = .ofMagnitude magnitude := by
  let decimal : Decimal := if magnitude = 0 then ⟨0, 0⟩ else Decimal.shortest magnitude
  have rounds : RoundsTo decimal.toRat magnitude := by
    by_cases isZero : magnitude = 0
    · have zeroRat : decimal.toRat = amount magnitude := by
        simp [decimal, isZero, Decimal.toRat]
      rw [zeroRat]
      exact RoundsTo.of_amount finite.le
    · have isShortest : decimal = Decimal.shortest magnitude := if_neg isZero
      rw [isShortest]
      exact Decimal.roundsTo_shortest finite.le
  obtain ⟨numeral, writes⟩ := exists_writes decimal
  refine ⟨numeral, writes.wellFormed, ?_, ?_⟩
  · rw [magnitudeText, if_neg finite.ne, if_pos isPositional]
    exact writes.text_eq
  · apply Decimal.toBinary64_eq_of_roundsTo
    rw [Numeral.toRat_decimal, writes.toRat_eq]
    exact rounds

/-- The least number above the range is the value of a magnitude. -/
theorem amount_positionalBelow : amount 0x4341c37937e08000 = 10 ^ 16 := by
  have units : Binary64.unitCount 0x4341c37937e08000 = 10 ^ 16 * Binary64.unitsPerOne := by
    decide +kernel
  rw [Binary64.amount_eq_of_unitCount_eq units]
  norm_num

/-- The values that are numbers in the range are written with a point, although its lower
bound is no value and is rounded. -/
theorem isPositional_literal (atMost : magnitude ≤ infiniteMagnitude)
    (inRange : amount magnitude = 0 ∨
      1 / 10 ^ 4 ≤ amount magnitude ∧ amount magnitude < 10 ^ 16) :
    literal.isPositional magnitude = true := by
  have rounds : RoundsTo (amount magnitude) magnitude := RoundsTo.of_amount atMost
  have fromRat : literal.positionalFrom.toRat = 1 / 10 ^ 4 := by
    norm_num [literal, Decimal.toRat]
  have belowRat : literal.positionalBelow.toRat = amount 0x4341c37937e08000 := by
    rw [amount_positionalBelow]
    norm_num [literal, Decimal.toRat]
  have fromRounds := literal.positionalFrom.roundsTo_toBinary64
  have belowRounds := literal.positionalBelow.roundsTo_toBinary64
  rw [fromRat] at fromRounds
  rw [belowRat] at belowRounds
  have belowEq := belowRounds.unique (RoundsTo.of_amount (by decide))
  rw [isPositional, belowEq]
  rcases inRange with isZero | ⟨atLeast, less⟩
  · have zero : magnitude = 0 := by
      apply Binary64.amount_strictMono.injective
      rw [isZero, Binary64.amount_zero]
    simp [zero]
  · have above := fromRounds.mono rounds atLeast
    rw [← amount_positionalBelow] at less
    have below := Binary64.amount_strictMono.lt_iff_lt.1 less
    simp [above, below]

end NumberLayout

/-! ## Numbers scanned again -/

theorem tokenize_numeral {numeral : Numeral} (wellFormed : numeral.WellFormed)
    (file : Option String) :
    tokenize (String.ofList numeral.text) file =
      ⟨[⟨.number, String.ofList numeral.text, some (.number numeral.value), 1⟩,
        .endOfText 1], []⟩ := by
  have isSegment : (Segment.lexeme (.number numeral)).WellFormed := wellFormed
  have oneLine : lineFeed ∉ numeral.text := wellFormed.blank_not_mem_text rfl
  have piecesEq : segments numeral.text = [.lexeme (.number numeral)] :=
    (tiling_singleton isSegment).segments_eq
  rw [tokenize, events, String.toList_ofList, piecesEq, lineAfter_of_not_mem oneLine]
  rfl

/-- The text of a value in the range of the numbers written with a point. -/
theorem Binary64.exists_numeral_of_text {magnitude : Nat} (finite : magnitude < infiniteMagnitude)
    (inRange : amount magnitude = 0 ∨
      1 / 10 ^ 4 ≤ amount magnitude ∧ amount magnitude < 10 ^ 16) :
    ∃ numeral : Numeral, numeral.WellFormed ∧
      (ofMagnitude magnitude).text = String.ofList numeral.text ∧
      numeral.value = ofMagnitude magnitude := by
  have isPositional := NumberLayout.isPositional_literal finite.le inRange
  obtain ⟨numeral, wellFormed, textEq, valueEq⟩ :=
    NumberLayout.exists_numeral_of_isPositional finite isPositional
  refine ⟨numeral, wellFormed, ?_, valueEq⟩
  rw [Binary64.text, NumberLayout.text, isNaN_ofMagnitude finite.le,
    isNegative_ofMagnitude finite.le, magnitude_ofMagnitude finite.le, textEq]
  rfl

theorem Binary64.finite_and_amount_of_extended {magnitude : Nat} {lower upper : ℚ}
    (atMost : magnitude ≤ infiniteMagnitude)
    (inRange : (ofMagnitude magnitude).extended = 0 ∨
      (lower : WithTop ℚ) ≤ (ofMagnitude magnitude).extended ∧
        (ofMagnitude magnitude).extended < (upper : WithTop ℚ)) :
    magnitude < infiniteMagnitude ∧
      (amount magnitude = 0 ∨ lower ≤ amount magnitude ∧ amount magnitude < upper) := by
  rw [extended, magnitude_ofMagnitude atMost, toRat_ofMagnitude atMost] at inRange
  by_cases finite : magnitude < infiniteMagnitude
  · rw [if_pos finite, WithTop.coe_eq_zero, WithTop.coe_le_coe, WithTop.coe_lt_coe] at inRange
    exact ⟨finite, inRange⟩
  · rw [if_neg finite] at inRange
    rcases inRange with isZero | ⟨-, less⟩
    · exact absurd isZero WithTop.top_ne_zero
    · exact absurd less not_top_lt

/-- A number of a scan that is zero, or in the range of those written with a point, is
printed as one number with the same value, and that number is printed the same way. -/
theorem printed_numbers_scan_back (source : String) (file label : Option String) :
    ∀ token ∈ (tokenize source file).tokens, token.kind = .number →
      ∃ value : Binary64, token.literal = some (.number value) ∧
        token.literalText = value.text ∧
        (value.extended = 0 ∨ ((1 / 10 ^ 4 : ℚ) : WithTop ℚ) ≤ value.extended ∧
            value.extended < ((10 ^ 16 : ℚ) : WithTop ℚ) →
          ∃ again : Token, again.kind = .number ∧ again.lexeme = value.text ∧
            again.literal = some (.number value) ∧
            tokenize value.text label = ⟨[again, .endOfText 1], []⟩ ∧
            again.literalText = value.text) := by
  intro token member isNumber
  obtain ⟨found, -, -, literalEq⟩ := (scanned_of_mem_tokens member).exists_numeral isNumber
  obtain ⟨magnitude, rounds, valueEq⟩ := found.decimal.exists_roundsTo
  rw [Numeral.value, valueEq] at literalEq
  have textEq : token.literalText = (Binary64.ofMagnitude magnitude).text := by
    rw [Token.literalText, literalEq]
    rfl
  refine ⟨_, literalEq, textEq, ?_⟩
  intro inRange
  obtain ⟨finite, amountInRange⟩ :=
    Binary64.finite_and_amount_of_extended rounds.le_infinite inRange
  obtain ⟨numeral, wellFormed, printed, readsBack⟩ :=
    Binary64.exists_numeral_of_text finite amountInRange
  have scanned := tokenize_numeral wellFormed label
  rw [← printed, readsBack] at scanned
  exact ⟨_, rfl, rfl, rfl, scanned, rfl⟩

/-- A number with more digits than its value needs. -/
theorem number_printed_shorter :
    let value : Binary64 := ⟨0x3ff4cccccccccccd⟩
    let long : Token := ⟨.number, "1.3000000000000000001", some (.number value), 1⟩
    long ∈ (tokenize "1.3000000000000000001" none).tokens ∧
    ((1 / 10 ^ 4 : ℚ) : WithTop ℚ) ≤ value.extended ∧
    value.extended < ((10 ^ 16 : ℚ) : WithTop ℚ) ∧
    value.text = "1.3" ∧
    ∃ again : Token, again.kind = .number ∧ again.lexeme = "1.3" ∧
      again.literal = some (.number value) ∧
      tokenize "1.3" none = ⟨[again, .endOfText 1], []⟩ ∧ again.literalText = "1.3" := by
  intro value long
  have tokensEq : (tokenize "1.3000000000000000001" none).tokens = [long, .endOfText 1] := by
    decide +kernel
  have member : long ∈ (tokenize "1.3000000000000000001" none).tokens := by
    rw [tokensEq]
    exact List.mem_cons_self
  have textEq : value.text = "1.3" := by decide +kernel
  have oneEq : amount 0x3ff0000000000000 = (1 : Nat) :=
    Binary64.amount_eq_of_unitCount_eq (by decide +kernel)
  have twoEq : amount 0x4000000000000000 = (2 : Nat) :=
    Binary64.amount_eq_of_unitCount_eq (by decide +kernel)
  have aboveOne : amount 0x3ff0000000000000 < amount 0x3ff4cccccccccccd :=
    Binary64.amount_strictMono (by decide)
  have belowTwo : amount 0x3ff4cccccccccccd < amount 0x4000000000000000 :=
    Binary64.amount_strictMono (by decide)
  have extendedEq : value.extended = (amount 0x3ff4cccccccccccd : WithTop ℚ) := rfl
  rw [oneEq, Nat.cast_one] at aboveOne
  rw [twoEq, Nat.cast_two] at belowTwo
  have atLeast : ((1 / 10 ^ 4 : ℚ) : WithTop ℚ) ≤ value.extended := by
    rw [extendedEq, WithTop.coe_le_coe]
    linarith
  have less : value.extended < ((10 ^ 16 : ℚ) : WithTop ℚ) := by
    rw [extendedEq, WithTop.coe_lt_coe]
    linarith
  obtain ⟨scanned, literalEq, -, scansBack⟩ :=
    printed_numbers_scan_back "1.3000000000000000001" none none long member rfl
  have sameValue : value = scanned := Literal.number.inj (Option.some.inj literalEq)
  rw [← sameValue, textEq] at scansBack
  exact ⟨member, atLeast, less, textEq, scansBack (Or.inr ⟨atLeast, less⟩)⟩

end LoxScanner
