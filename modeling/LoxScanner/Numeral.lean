import LoxScanner.Number.Decimal

/-!
Numerals: digits, and possibly a point with more digits after it.
-/

namespace LoxScanner

/-- The digits on the two sides of the point. Without digits after it there is no
point. -/
structure Numeral where
  whole : List Char
  fraction : List Char
  deriving DecidableEq

namespace Numeral

def text (numeral : Numeral) : List Char :=
  match numeral.fraction with
  | [] => numeral.whole
  | first :: others => numeral.whole ++ '.' :: first :: others

/-- The number written, as a decimal. -/
def decimal (numeral : Numeral) : Decimal :=
  ⟨Decimal.ofDigits (numeral.whole ++ numeral.fraction),
    -(numeral.fraction.length : Int)⟩

def value (numeral : Numeral) : Binary64 :=
  numeral.decimal.toBinary64

/-- The longest numeral at the start of a text, and the rest. A point without a
digit after it is left in the rest. -/
def split (text : List Char) : Numeral × List Char :=
  let whole := text.takeWhile Char.isDigit
  let rest := text.dropWhile Char.isDigit
  match rest with
  | '.' :: digit :: more =>
      if digit.isDigit then
        (⟨whole, (digit :: more).takeWhile Char.isDigit⟩,
          (digit :: more).dropWhile Char.isDigit)
      else (⟨whole, []⟩, rest)
  | _ => (⟨whole, []⟩, rest)

/-- The numeral that a whole text is. -/
def ofText? (text : List Char) : Option Numeral :=
  match split text with
  | (numeral, []) => if numeral.whole = [] then none else some numeral
  | _ => none

theorem text_split_append (text : List Char) :
    (split text).1.text ++ (split text).2 = text := by
  have whole : text.takeWhile Char.isDigit ++ text.dropWhile Char.isDigit = text :=
    List.takeWhile_append_dropWhile
  unfold split
  dsimp only
  split
  next digit more restEq =>
    rw [restEq] at whole
    split
    next isDigit =>
      have fraction :
          (digit :: more).takeWhile Char.isDigit =
            digit :: more.takeWhile Char.isDigit := by
        simp [isDigit]
      have after :
          (digit :: more).dropWhile Char.isDigit =
            more.dropWhile Char.isDigit := by
        simp [isDigit]
      rw [fraction, after]
      simpa [Numeral.text] using whole
    next => simpa [Numeral.text, restEq] using whole
  next => simp [Numeral.text]

theorem text_split_ne_nil {first : Char} (isDigit : first.isDigit = true)
    (rest : List Char) : (split (first :: rest)).1.text ≠ [] := by
  have whole :
      (first :: rest).takeWhile Char.isDigit =
        first :: rest.takeWhile Char.isDigit := by
    simp [isDigit]
  unfold split
  dsimp only
  rw [whole]
  split
  next =>
    split
    · simp only [Numeral.text]
      split <;> simp
    · simp [Numeral.text]
  next => simp [Numeral.text]

end Numeral

end LoxScanner
