import LoxScanner.Segment

/-!
# The first character of a segment

The classes of characters that a cut tells apart exclude each other, so the class
of a text's first character decides which shape of segment stands at its start.
-/

namespace LoxScanner

/-! ## Letters and digits -/

theorem isWordChar_eq_true_iff {c : Char} :
    isWordChar c = true ↔ isWordStart c = true ∨ c.isDigit = true := by
  simp only [isWordChar, isWordStart, Char.isAlphanum, Bool.or_eq_true]
  constructor
  · rintro ((isAlpha | isDigit) | underscore)
    · exact Or.inl (Or.inl isAlpha)
    · exact Or.inr isDigit
    · exact Or.inl (Or.inr underscore)
  · rintro ((isAlpha | underscore) | isDigit)
    · exact Or.inl (Or.inl isAlpha)
    · exact Or.inr underscore
    · exact Or.inl (Or.inr isDigit)

private theorem isDigit_eq_false_of_isAlpha {c : Char}
    (isAlpha : c.isAlpha = true) : c.isDigit = false := by
  have above : '9'.toNat < c.toNat := by
    have isLetter : c.isUpper = true ∨ c.isLower = true := Bool.or_eq_true_iff.1 isAlpha
    rcases isLetter with isUpper | isLower
    · have bounds : 'A'.val ≤ c.val ∧ c.val ≤ 'Z'.val := of_decide_eq_true isUpper
      have fromUpper : 'A'.toNat ≤ c.toNat := UInt32.le_iff_toNat_le.1 bounds.1
      exact Nat.lt_of_lt_of_le (by decide) fromUpper
    · have bounds : ('a'.val ≤ c.val : Bool) = true ∧ (c.val ≤ 'z'.val : Bool) = true :=
        Bool.and_eq_true_iff.1 isLower
      have fromLower : 'a'.toNat ≤ c.toNat :=
        UInt32.le_iff_toNat_le.1 (of_decide_eq_true bounds.1)
      exact Nat.lt_of_lt_of_le (by decide) fromLower
  rw [← Bool.not_eq_true, Char.isDigit_iff_toNat]
  omega

theorem isDigit_eq_false_of_isWordStart {c : Char}
    (starts : isWordStart c = true) : c.isDigit = false := by
  simp only [isWordStart, Bool.or_eq_true, beq_iff_eq] at starts
  rcases starts with isAlpha | rfl
  · exact isDigit_eq_false_of_isAlpha isAlpha
  · rfl

theorem isWordChar_eq_false_of_isWhitespace {c : Char}
    (blank : c.isWhitespace = true) : isWordChar c = false := by
  simp only [Char.isWhitespace, Bool.or_eq_true, decide_eq_true_eq] at blank
  rcases blank with ((rfl | rfl) | rfl) | rfl <;> rfl

theorem isDigit_eq_false_of_isWhitespace {c : Char} (blank : c.isWhitespace = true) :
    c.isDigit = false := by
  have outside : isWordChar c = false := isWordChar_eq_false_of_isWhitespace blank
  rw [← Bool.not_eq_true] at outside ⊢
  intro isDigit
  exact outside (isWordChar_eq_true_iff.2 (Or.inr isDigit))

/-! ## Leads -/

/-- What the first character of a segment tells about it. -/
inductive Lead
  | blank
  | quotation
  | digit
  | letter
  | mark (symbol : Symbol)
  | nothing
  deriving DecidableEq

namespace Lead

def of (c : Char) : Lead :=
  if c.isWhitespace then blank
  else if c = quote then quotation
  else if c.isDigit then digit
  else if isWordStart c then letter
  else
    match Symbol.ofChar? c with
    | some symbol => mark symbol
    | none => nothing

theorem of_eq_blank_iff {c : Char} : of c = blank ↔ c.isWhitespace = true := by
  unfold of
  grind

theorem of_eq_quotation_iff {c : Char} : of c = quotation ↔ c = quote := by
  constructor
  · unfold of
    grind
  · rintro rfl
    rfl

private theorem not_isWhitespace_of_isWordChar {c : Char}
    (inWord : isWordChar c = true) : ¬ c.isWhitespace = true := by
  intro blank
  rw [isWordChar_eq_false_of_isWhitespace blank] at inWord
  cases inWord

private theorem ne_quote_of_isWordChar {c : Char}
    (inWord : isWordChar c = true) : c ≠ quote := by
  rintro rfl
  cases inWord

theorem of_eq_digit_iff {c : Char} : of c = digit ↔ c.isDigit = true := by
  constructor
  · unfold of
    grind
  · intro isDigit
    have inWord := isWordChar_eq_true_iff.2 (Or.inr isDigit)
    rw [of, if_neg (not_isWhitespace_of_isWordChar inWord),
      if_neg (ne_quote_of_isWordChar inWord), if_pos isDigit]

theorem of_eq_letter_iff {c : Char} : of c = letter ↔ isWordStart c = true := by
  constructor
  · unfold of
    grind
  · intro starts
    have inWord := isWordChar_eq_true_iff.2 (Or.inl starts)
    have notDigit : ¬ c.isDigit = true := by
      simp [isDigit_eq_false_of_isWordStart starts]
    rw [of, if_neg (not_isWhitespace_of_isWordChar inWord),
      if_neg (ne_quote_of_isWordChar inWord), if_neg notDigit, if_pos starts]

theorem of_eq_mark_iff {c : Char} {symbol : Symbol} :
    of c = mark symbol ↔ Symbol.ofChar? c = some symbol := by
  constructor
  · unfold of
    grind
  · intro single
    unfold Symbol.ofChar? at single
    split at single <;> cases single <;> rfl

/-- A character without a class starts no segment but the one it is alone. -/
theorem of_eq_nothing_iff {c : Char} :
    of c = nothing ↔
      c.isWhitespace = false ∧ c ≠ quote ∧ c.isDigit = false ∧
        isWordStart c = false ∧ Symbol.ofChar? c = none := by
  unfold of
  grind

theorem of_of_isWordChar {c : Char} (inWord : isWordChar c = true) :
    of c = letter ∨ of c = digit := by
  rcases isWordChar_eq_true_iff.1 inWord with starts | isDigit
  · exact Or.inl (of_eq_letter_iff.2 starts)
  · exact Or.inr (of_eq_digit_iff.2 isDigit)

end Lead

namespace Segment

/-- A cut looks at the class of the first character alone. -/
theorem cut_eq (first : Char) (rest : List Char) :
    cut first rest =
      match Lead.of first with
      | .blank => (.space first, rest)
      | .quotation => cutString rest
      | .digit =>
          (.lexeme (.number (Numeral.split (first :: rest)).1),
            (Numeral.split (first :: rest)).2)
      | .letter =>
          (.lexeme (.word (first :: rest.takeWhile isWordChar)),
            rest.dropWhile isWordChar)
      | .mark symbol => cutSymbol symbol rest
      | .nothing => (.stray first, rest) := by
  unfold cut Lead.of
  grind

end Segment

end LoxScanner
