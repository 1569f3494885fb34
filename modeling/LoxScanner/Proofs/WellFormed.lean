import LoxScanner.Proofs.Lead
import Mathlib.Data.List.TakeWhile

/-!
# Well-formed lexemes and segments

The shapes of text that the language knows, said without the scan that finds
them. A segment's shape shows in its first character.
-/

namespace LoxScanner

/-- One or more digits, and possibly a point with one or more digits after it. -/
structure Numeral.WellFormed (numeral : Numeral) : Prop where
  whole_ne_nil : numeral.whole ≠ []
  whole_digits : ∀ c ∈ numeral.whole, c.isDigit = true
  fraction_digits : ∀ c ∈ numeral.fraction, c.isDigit = true

/-- Whether a lexeme is one of the language: any symbol, a word that a letter
starts, a numeral, or a string without a quote between its quotes. -/
def Lexeme.WellFormed : Lexeme → Prop
  | symbol _ => True
  | word text =>
      ∃ first others, text = first :: others ∧ isWordStart first = true ∧
        ∀ c ∈ others, isWordChar c = true
  | number numeral => numeral.WellFormed
  | string contents => quote ∉ contents

theorem Lexeme.isWordChar_of_mem {letters : List Char}
    (wellFormed : (word letters).WellFormed) :
    ∀ c ∈ letters, isWordChar c = true := by
  obtain ⟨first, others, rfl, starts, inWord⟩ := wellFormed
  intro c member
  rcases List.mem_cons.1 member with rfl | later
  · exact isWordChar_eq_true_iff.2 (Or.inl starts)
  · exact inWord c later

/-- The characters that start an operator or are a punctuation mark. -/
def symbolCharacters : List Char :=
  ['(', ')', '{', '}', ',', '.', '-', '+', ';', '*', '!', '=', '<', '>', '/']

theorem ofChar?_eq_none_iff {c : Char} :
    Symbol.ofChar? c = none ↔ c ∉ symbolCharacters := by
  constructor
  · intro isNone member
    simp only [symbolCharacters, List.mem_cons, List.not_mem_nil, or_false] at member
    rcases member with rfl | rfl | rfl | rfl | rfl | rfl | rfl | rfl | rfl | rfl |
      rfl | rfl | rfl | rfl | rfl <;> cases isNone
  · intro notMember
    cases single : Symbol.ofChar? c with
    | none => rfl
    | some symbol =>
        refine absurd ?_ notMember
        unfold Symbol.ofChar? at single
        split at single <;> cases single <;> decide

namespace Segment

/-- Whether a segment is of one of the five shapes: a lexeme, a blank, a comment
within its line, a character that starts nothing, or a string left open. -/
def WellFormed : Segment → Prop
  | lexeme found => found.WellFormed
  | space character =>
      character = ' ' ∨ character = '\t' ∨ character = '\r' ∨ character = '\n'
  | comment remark => lineFeed ∉ remark
  | stray character =>
      character ∉ [' ', '\t', '\r', '\n'] ∧ character ≠ quote ∧
        character.isDigit = false ∧ isWordStart character = false ∧
        character ∉ symbolCharacters
  | openString contents => quote ∉ contents

end Segment

/-! ## Blanks -/

theorem isWhitespace_iff {c : Char} :
    c.isWhitespace = true ↔ c = ' ' ∨ c = '\t' ∨ c = '\r' ∨ c = '\n' := by
  simp [Char.isWhitespace, or_assoc]

theorem not_mem_of_forall {condition : Char → Bool} {text : List Char} {stop : Char}
    (stops : condition stop = false) (inside : ∀ c ∈ text, condition c = true) :
    stop ∉ text := by
  intro member
  have satisfied := inside stop member
  rw [stops] at satisfied
  cases satisfied

section Blank

variable {blank : Char}

theorem Numeral.WellFormed.blank_not_mem_text {numeral : Numeral}
    (wellFormed : numeral.WellFormed) (isBlank : blank.isWhitespace = true) :
    blank ∉ numeral.text := by
  have notDigit : blank.isDigit = false := isDigit_eq_false_of_isWhitespace isBlank
  have notWhole := not_mem_of_forall notDigit wellFormed.whole_digits
  have notFraction := not_mem_of_forall notDigit wellFormed.fraction_digits
  obtain ⟨whole, fraction⟩ := numeral
  cases fraction with
  | nil => exact notWhole
  | cons digit others =>
      have notPoint : blank ≠ '.' := by
        rintro rfl
        cases isBlank
      simpa [text, notPoint] using And.intro notWhole notFraction

theorem Symbol.blank_not_mem_spelling (isBlank : blank.isWhitespace = true) (symbol : Symbol) :
    blank ∉ symbol.spelling := by
  rcases isWhitespace_iff.1 isBlank with rfl | rfl | rfl | rfl <;> cases symbol <;> decide

/-- Of the lexemes only a string can have a blank in it. -/
theorem Lexeme.blank_not_mem_text {found : Lexeme} (wellFormed : found.WellFormed)
    (notString : ∀ contents, found ≠ string contents) (isBlank : blank.isWhitespace = true) :
    blank ∉ found.text := by
  cases found with
  | symbol mark => exact mark.blank_not_mem_spelling isBlank
  | word letters =>
      exact not_mem_of_forall (isWordChar_eq_false_of_isWhitespace isBlank)
        (isWordChar_of_mem wellFormed)
  | number numeral => exact Numeral.WellFormed.blank_not_mem_text wellFormed isBlank
  | string contents => exact absurd rfl (notString contents)

end Blank

/-! ## Leads -/

/-- The one-character symbol with which a symbol starts. -/
def Symbol.single : Symbol → Symbol
  | bangEqual => bang
  | equalEqual => equal
  | greaterEqual => greater
  | lessEqual => less
  | other => other

namespace Segment

/-- The class of the characters that start segments of a shape. -/
def lead : Segment → Lead
  | lexeme (.symbol symbol) => .mark symbol.single
  | lexeme (.word _) => .letter
  | lexeme (.number _) => .digit
  | lexeme (.string _) => .quotation
  | space _ => .blank
  | comment _ => .mark .slash
  | stray _ => .nothing
  | openString _ => .quotation

private theorem exists_lead_of_symbol (symbol : Symbol) :
    ∃ first others, symbol.spelling = first :: others ∧
      Lead.of first = .mark symbol.single := by
  cases symbol <;> exact ⟨_, _, rfl, rfl⟩

private theorem exists_lead_of_number {numeral : Numeral}
    (wellFormed : numeral.WellFormed) :
    ∃ first others, numeral.text = first :: others ∧ Lead.of first = .digit := by
  obtain ⟨whole, fraction⟩ := numeral
  cases whole with
  | nil => exact absurd rfl wellFormed.whole_ne_nil
  | cons first others =>
      have isDigit : first.isDigit = true := wellFormed.whole_digits first (by simp)
      cases fraction with
      | nil => exact ⟨first, others, rfl, Lead.of_eq_digit_iff.2 isDigit⟩
      | cons digit more => exact ⟨first, _, rfl, Lead.of_eq_digit_iff.2 isDigit⟩

theorem of_eq_nothing_iff_wellFormed {c : Char} :
    Lead.of c = .nothing ↔ (stray c).WellFormed := by
  rw [Lead.of_eq_nothing_iff, ofChar?_eq_none_iff, ← Bool.not_eq_true,
    isWhitespace_iff]
  simp [WellFormed]

/-- A well-formed segment has a first character, and it is of the class that
leads segments of its shape. -/
theorem exists_lead {piece : Segment} (wellFormed : piece.WellFormed) :
    ∃ first others, piece.text = first :: others ∧ Lead.of first = piece.lead := by
  cases piece with
  | lexeme found =>
      cases found with
      | symbol mark => exact exists_lead_of_symbol mark
      | word letters =>
          obtain ⟨first, others, rfl, starts, _⟩ := wellFormed
          exact ⟨first, others, rfl, Lead.of_eq_letter_iff.2 starts⟩
      | number numeral => exact exists_lead_of_number wellFormed
      | string contents => exact ⟨quote, contents ++ [quote], rfl, rfl⟩
  | space character =>
      exact ⟨character, [], rfl, Lead.of_eq_blank_iff.2 (isWhitespace_iff.2 wellFormed)⟩
  | comment remark => exact ⟨'/', '/' :: remark, rfl, rfl⟩
  | stray character =>
      exact ⟨character, [], rfl, of_eq_nothing_iff_wellFormed.2 wellFormed⟩
  | openString contents => exact ⟨quote, contents, rfl, rfl⟩

theorem text_ne_nil {piece : Segment} (wellFormed : piece.WellFormed) :
    piece.text ≠ [] := by
  obtain ⟨first, others, textEq, _⟩ := exists_lead wellFormed
  simp [textEq]

/-- Of a text that a well-formed segment starts, the first character tells the
segment's shape. -/
theorem lead_eq_of_append_eq_cons {piece : Segment} {after rest : List Char}
    {first : Char} (wellFormed : piece.WellFormed)
    (whole : piece.text ++ after = first :: rest) :
    Lead.of first = piece.lead := by
  obtain ⟨start, others, textEq, lead⟩ := exists_lead wellFormed
  rw [textEq, List.cons_append, List.cons.injEq] at whole
  rw [← whole.1, lead]

/-- Well-formed segments that start the same text are of shapes with the same
lead. -/
theorem lead_eq_of_append_eq_append {piece other : Segment} {after tail : List Char}
    (wellFormed : piece.WellFormed) (otherWellFormed : other.WellFormed)
    (whole : other.text ++ tail = piece.text ++ after) : other.lead = piece.lead := by
  obtain ⟨first, rest, textEq, lead⟩ := exists_lead wellFormed
  rw [textEq, List.cons_append] at whole
  rw [← lead, lead_eq_of_append_eq_cons otherWellFormed whole]

end Segment

end LoxScanner
