import LoxScanner.Proofs.Lossless
import LoxScanner.Proofs.Rounding

/-!
# The literals of scanned numbers

A numeral denotes a rational number, and its value is the double-precision value nearest to
that number, however many digits there are. Every number that a scan finds is such a
numeral, so that reading its text never fails.
-/

namespace LoxScanner

open Binary64 (RoundsTo)

/-! ## Decimals -/

namespace Decimal

/-- The number that a decimal stands for. -/
def toRat (decimal : Decimal) : ℚ :=
  decimal.coefficient * 10 ^ decimal.exponent

variable {decimal other : Decimal}

theorem toRat_nonneg (decimal : Decimal) : 0 ≤ decimal.toRat :=
  mul_nonneg (Nat.cast_nonneg _) (zpow_nonneg (by norm_num) _)

/-- A decimal as the ratio that is rounded. -/
theorem toRat_eq_div (decimal : Decimal) :
    decimal.toRat = ((decimal.coefficient * powerOfTen decimal.exponent.toNat : Nat) : ℚ) /
      (powerOfTen (-decimal.exponent).toNat : Nat) := by
  obtain ⟨coefficient, exponent⟩ := decimal
  have powerEq : ∀ count, powerOfTen count = 10 ^ count := fun _ => rfl
  obtain ⟨count, rfl | rfl⟩ := exponent.eq_nat_or_neg
  · have noFraction : (-(count : Int)).toNat = 0 := by omega
    rw [toRat, zpow_natCast, Int.toNat_natCast, noFraction, powerEq, powerEq, pow_zero,
      Nat.cast_one, div_one]
    push_cast
    rfl
  · have noWhole : (-(count : Int)).toNat = 0 := by omega
    rw [toRat, zpow_neg, zpow_natCast, neg_neg, Int.toNat_natCast, noWhole, powerEq, powerEq,
      pow_zero, Nat.mul_one, div_eq_mul_inv]
    push_cast
    rfl

theorem exists_roundsTo (decimal : Decimal) :
    ∃ magnitude, RoundsTo decimal.toRat magnitude ∧
      decimal.toBinary64 = .ofMagnitude magnitude := by
  have positive : 0 < powerOfTen (-decimal.exponent).toNat := Nat.pow_pos (by decide)
  refine ⟨_, ?_, rfl⟩
  rw [toRat_eq_div]
  exact Binary64.roundsTo_nearestMagnitude _ positive

theorem roundsTo_toBinary64 (decimal : Decimal) :
    RoundsTo decimal.toRat decimal.toBinary64.magnitude := by
  obtain ⟨magnitude, rounds, valueEq⟩ := decimal.exists_roundsTo
  rw [valueEq, Binary64.magnitude_ofMagnitude rounds.le_infinite]
  exact rounds

theorem toBinary64_eq_of_roundsTo {magnitude : Nat} (rounds : RoundsTo decimal.toRat magnitude) :
    decimal.toBinary64 = .ofMagnitude magnitude := by
  obtain ⟨rounded, alsoRounds, valueEq⟩ := decimal.exists_roundsTo
  rw [valueEq, alsoRounds.unique rounds]

theorem nearestTo_toBinary64 (decimal : Decimal) :
    decimal.toBinary64.NearestTo decimal.toRat := by
  obtain ⟨magnitude, rounds, valueEq⟩ := decimal.exists_roundsTo
  rw [valueEq]
  exact rounds.nearestTo decimal.toRat_nonneg

/-- The value depends on the number alone, not on how it is written. -/
theorem toBinary64_eq_of_toRat_eq (same : decimal.toRat = other.toRat) :
    decimal.toBinary64 = other.toBinary64 := by
  obtain ⟨magnitude, rounds, valueEq⟩ := other.exists_roundsTo
  rw [valueEq]
  rw [← same] at rounds
  exact toBinary64_eq_of_roundsTo rounds

theorem extended_toBinary64_mono (atMost : decimal.toRat ≤ other.toRat) :
    decimal.toBinary64.extended ≤ other.toBinary64.extended := by
  obtain ⟨lower, lowerRounds, lowerEq⟩ := decimal.exists_roundsTo
  obtain ⟨upper, upperRounds, upperEq⟩ := other.exists_roundsTo
  rw [lowerEq, upperEq]
  exact Binary64.extended_ofMagnitude_mono upperRounds.le_infinite
    (lowerRounds.mono upperRounds atMost)

/-! ### Digits -/

theorem ofDigits_append (front back : List Char) :
    ofDigits (front ++ back) = 10 ^ back.length * ofDigits front + ofDigits back := by
  change Nat.ofDigitChars 10 (front ++ back) 0 = _
  rw [Nat.ofDigitChars_append, Nat.ofDigitChars_eq_ofDigitChars_zero]
  rfl

theorem ofDigits_replicate_zero (count : Nat) : ofDigits (List.replicate count '0') = 0 := by
  change Nat.ofDigitChars 10 (List.replicate count '0') 0 = 0
  rw [Nat.ofDigitChars_replicate_zero, Nat.mul_zero]

theorem isDigit_of_mem_zeros {count : Nat} {c : Char} (member : c ∈ List.replicate count '0') :
    c.isDigit = true := by
  rw [List.eq_of_mem_replicate member]
  rfl

end Decimal

/-! ## Numerals -/

namespace Numeral

/-- The number that a numeral denotes. -/
def toRat (numeral : Numeral) : ℚ :=
  Decimal.ofDigits numeral.whole +
    Decimal.ofDigits numeral.fraction / 10 ^ numeral.fraction.length

/-- A numeral with more zeros at its start and at the end of its fraction. -/
def padded (leading trailing : Nat) (numeral : Numeral) : Numeral :=
  ⟨List.replicate leading '0' ++ numeral.whole,
    numeral.fraction ++ List.replicate trailing '0'⟩

variable {numeral left right : Numeral}

theorem toRat_decimal (numeral : Numeral) : numeral.decimal.toRat = numeral.toRat := by
  have notZero : (10 : ℚ) ^ numeral.fraction.length ≠ 0 := pow_ne_zero _ (by norm_num)
  rw [Decimal.toRat, decimal, toRat, Decimal.ofDigits_append, zpow_neg, zpow_natCast]
  push_cast
  field_simp

theorem nearestTo_value (numeral : Numeral) : numeral.value.NearestTo numeral.toRat := by
  rw [← toRat_decimal]
  exact numeral.decimal.nearestTo_toBinary64

theorem value_eq_of_toRat_eq (same : left.toRat = right.toRat) : left.value = right.value := by
  apply Decimal.toBinary64_eq_of_toRat_eq
  rw [toRat_decimal, toRat_decimal, same]

theorem extended_value_mono (atMost : left.toRat ≤ right.toRat) :
    left.value.extended ≤ right.value.extended := by
  apply Decimal.extended_toBinary64_mono
  rw [toRat_decimal, toRat_decimal]
  exact atMost

theorem toRat_padded (leading trailing : Nat) (numeral : Numeral) :
    (numeral.padded leading trailing).toRat = numeral.toRat := by
  have notZero : (10 : ℚ) ^ trailing ≠ 0 := pow_ne_zero _ (by norm_num)
  simp only [toRat, padded, Decimal.ofDigits_append, Decimal.ofDigits_replicate_zero,
    List.length_append, List.length_replicate, pow_add, Nat.mul_zero, Nat.zero_add, Nat.add_zero]
  push_cast
  field_simp

theorem wellFormed_padded (wellFormed : numeral.WellFormed) (leading trailing : Nat) :
    (numeral.padded leading trailing).WellFormed := by
  refine ⟨?_, ?_, ?_⟩
  · exact List.append_ne_nil_of_right_ne_nil _ wellFormed.whole_ne_nil
  · exact List.forall_mem_append.2
      ⟨fun _ => Decimal.isDigit_of_mem_zeros, wellFormed.whole_digits⟩
  · exact List.forall_mem_append.2
      ⟨wellFormed.fraction_digits, fun _ => Decimal.isDigit_of_mem_zeros⟩

end Numeral

/-! ## The numbers of a scan -/

theorem Token.Kind.ofWord_ne_number (word : List Char) : ofWord word ≠ number := by
  unfold ofWord
  split <;> simp

theorem Lexeme.exists_numeral_of_kind {found : Lexeme} (isNumber : found.kind = .number) :
    ∃ numeral, found = number numeral := by
  cases found with
  | symbol mark => cases isNumber
  | word letters => exact absurd isNumber (Token.Kind.ofWord_ne_number letters)
  | number numeral => exact ⟨numeral, rfl⟩
  | string contents => cases isNumber

theorem Token.Scanned.exists_numeral {token : Token} (scanned : token.Scanned)
    (isNumber : token.kind = .number) :
    ∃ numeral : Numeral, numeral.WellFormed ∧
      token.lexeme = String.ofList numeral.text ∧
      token.literal = some (.number numeral.value) := by
  cases scanned with
  | lexeme wellFormed line =>
      obtain ⟨numeral, rfl⟩ := Lexeme.exists_numeral_of_kind isNumber
      exact ⟨numeral, wellFormed, rfl, rfl⟩
  | endOfText line => cases isNumber

/-- The text of each number of a scan is a numeral, so that reading it does not fail, and
its literal is the value nearest to what the numeral denotes. The values keep the order of
the numbers denoted, and zeros at the ends of a numeral do not change its value. -/
theorem tokenize_number_literals :
    (∀ (source : String) (file : Option String),
      (Lexer.ofSource source file).scanTokens = .ok (tokenize source file) ∧
      ∀ token ∈ (tokenize source file).tokens, token.kind = .number →
        ∃ numeral : Numeral, numeral.WellFormed ∧ token.lexeme.toList = numeral.text ∧
          Numeral.ofText? token.lexeme.toList = some numeral ∧
          Lexer.numeralValue token.lexeme = numeral.value ∧
          token.literal = some (.number numeral.value) ∧
          numeral.value.NearestTo numeral.toRat) ∧
    (∀ left right : Numeral, left.toRat ≤ right.toRat →
      left.value.extended ≤ right.value.extended) ∧
    ∀ (numeral : Numeral) (leading trailing : Nat), numeral.WellFormed →
      (numeral.padded leading trailing).WellFormed ∧
        (numeral.padded leading trailing).toRat = numeral.toRat ∧
        (numeral.padded leading trailing).value = numeral.value := by
  refine ⟨?_, fun left right => Numeral.extended_value_mono, ?_⟩
  · intro source file
    refine ⟨Lexer.scanTokens_ofSource source file, ?_⟩
    intro token member isNumber
    obtain ⟨numeral, wellFormed, lexemeEq, literalEq⟩ :=
      (scanned_of_mem_tokens member).exists_numeral isNumber
    have textEq : token.lexeme.toList = numeral.text := by
      rw [lexemeEq, String.toList_ofList]
    have read : Numeral.ofText? token.lexeme.toList = some numeral := by
      rw [textEq]
      exact Numeral.ofText?_text wellFormed
    have valueEq : Lexer.numeralValue token.lexeme = numeral.value := by
      rw [lexemeEq]
      exact Lexer.numeralValue_text wellFormed
    exact ⟨numeral, wellFormed, textEq, read, valueEq, literalEq, numeral.nearestTo_value⟩
  · intro numeral leading trailing wellFormed
    have same := numeral.toRat_padded leading trailing
    exact ⟨Numeral.wellFormed_padded wellFormed leading trailing, same,
      Numeral.value_eq_of_toRat_eq same⟩

/-- A number halfway between two values, and one a little above it. -/
theorem literals_around_halfway :
    let source := "9007199254740993 9007199254740993.00000000000000000001"
    let halfway : Token :=
      ⟨.number, "9007199254740993", some (.number ⟨0x4340000000000000⟩), 1⟩
    let above : Token :=
      ⟨.number, "9007199254740993.00000000000000000001", some (.number ⟨0x4340000000000001⟩), 1⟩
    let one : Numeral := ⟨['1'], []⟩
    (tokenize source none).tokens = [halfway, above, .endOfText 1] ∧
    Binary64.NearestTo ⟨0x4340000000000000⟩ 9007199254740993 ∧
    Binary64.NearestTo ⟨0x4340000000000001⟩ (9007199254740993 + 1 / 10 ^ 20) ∧
    Binary64.extended ⟨0x4340000000000000⟩ ≤ Binary64.extended ⟨0x4340000000000001⟩ ∧
    (one.padded 2 3).text = "001.000".toList ∧ (one.padded 2 3).value = one.value := by
  intro source halfway above one
  have tokensEq : (tokenize source none).tokens = [halfway, above, .endOfText 1] := by
    decide +kernel
  have wholeDigits : Decimal.ofDigits "9007199254740993".toList = 9007199254740993 := by
    decide +kernel
  have fractionDigits : Decimal.ofDigits "00000000000000000001".toList = 1 := by
    decide +kernel
  have fractionLength : "00000000000000000001".toList.length = 20 := by decide
  have readHalfway : Numeral.ofText? halfway.lexeme.toList =
      some ⟨"9007199254740993".toList, []⟩ := by
    decide +kernel
  have readAbove : Numeral.ofText? above.lexeme.toList =
      some ⟨"9007199254740993".toList, "00000000000000000001".toList⟩ := by
    decide +kernel
  obtain ⟨scans, increasing, zeros⟩ := tokenize_number_literals
  obtain ⟨-, literals⟩ := scans source none
  rw [tokensEq] at literals
  obtain ⟨lower, -, -, lowerRead, -, lowerLiteral, lowerNearest⟩ :=
    literals halfway (by simp) rfl
  obtain ⟨upper, -, -, upperRead, -, upperLiteral, upperNearest⟩ :=
    literals above (by simp) rfl
  have lowerRat : lower.toRat = 9007199254740993 := by
    rw [← Option.some.inj (readHalfway.symm.trans lowerRead), Numeral.toRat, wholeDigits]
    simp [Decimal.ofDigits]
  have upperRat : upper.toRat = 9007199254740993 + 1 / 10 ^ 20 := by
    rw [← Option.some.inj (readAbove.symm.trans upperRead), Numeral.toRat, wholeDigits,
      fractionDigits, fractionLength, Nat.cast_one]
    rfl
  have ordered : lower.value.extended ≤ upper.value.extended := by
    apply increasing
    rw [lowerRat, upperRat]
    norm_num
  rw [lowerRat, ← Literal.number.inj (Option.some.inj lowerLiteral)] at lowerNearest
  rw [upperRat, ← Literal.number.inj (Option.some.inj upperLiteral)] at upperNearest
  rw [← Literal.number.inj (Option.some.inj lowerLiteral),
    ← Literal.number.inj (Option.some.inj upperLiteral)] at ordered
  have oneWellFormed : one.WellFormed := ⟨by simp [one], by simp [one], by simp [one]⟩
  exact ⟨tokensEq, lowerNearest, upperNearest, ordered, rfl,
    (zeros one 2 3 oneWellFormed).2.2⟩

end LoxScanner
