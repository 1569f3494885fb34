import LoxScanner.Proofs.NumberLiterals

/-!
# Equality of scanned tokens

Tokens are compared field by field, and numbers as numbers, so that a token whose literal is
no number would differ from itself. No scan gives such a token, and the text of a token
decides its kind and its literal, whatever stands around it. So equality of scanned tokens
is equality of their texts and their lines.
-/

namespace LoxScanner

/-! ## A token and itself -/

theorem Binary64.numericEq_self {value : Binary64} (notNaN : value.isNaN = false) :
    value.numericEq value = true := by
  simp [numericEq, notNaN]

theorem Literal.agrees_self {literal : Literal}
    (notNaN : ∀ value, literal = number value → value.isNaN = false) :
    literal.agrees literal = true := by
  cases literal with
  | string text => exact beq_self_eq_true text
  | number value => exact Binary64.numericEq_self (notNaN value rfl)

namespace Token

variable {left right token : Token}

theorem agrees_self (notNaN : ∀ value, token.literal = some (.number value) →
    value.isNaN = false) : token.agrees token = true := by
  unfold agrees
  cases literalEq : token.literal with
  | none => simp
  | some literal =>
      rw [literalEq] at notNaN
      have same : literal.agrees literal = true := by
        apply Literal.agrees_self
        rintro value rfl
        exact notNaN value rfl
      simp [same]

theorem lexeme_eq_of_agrees (same : left.agrees right = true) : left.lexeme = right.lexeme := by
  simp only [agrees, Bool.and_eq_true, beq_iff_eq] at same
  exact same.1.1.2

theorem line_eq_of_agrees (same : left.agrees right = true) : left.line = right.line := by
  simp only [agrees, Bool.and_eq_true, beq_iff_eq] at same
  exact same.2

namespace Scanned

/-- The text of a scanned token decides all but its line. -/
theorem content_eq (leftScanned : left.Scanned) (rightScanned : right.Scanned)
    (same : left.lexeme = right.lexeme) : left.content = right.content := by
  cases leftScanned with
  | @lexeme found wellFormed line =>
      cases rightScanned with
      | @lexeme other otherWellFormed otherLine =>
          have textEq : other.text = found.text := (String.ofList_injective same).symm
          have lexemeEq : Segment.lexeme other = .lexeme found :=
            Segment.eq_of_text_eq wellFormed otherWellFormed textEq
          cases lexemeEq
          rfl
      | endOfText otherLine =>
          exact absurd same (Lexeme.token_lexeme_ne_empty wellFormed line)
  | endOfText line =>
      cases rightScanned with
      | lexeme otherWellFormed otherLine =>
          exact absurd same.symm (Lexeme.token_lexeme_ne_empty otherWellFormed otherLine)
      | endOfText otherLine => rfl

theorem kind_literal_eq (leftScanned : left.Scanned) (rightScanned : right.Scanned)
    (same : left.lexeme = right.lexeme) :
    left.kind = right.kind ∧ left.literal = right.literal := by
  have sameContent := content_eq leftScanned rightScanned same
  exact ⟨congrArg Prod.fst sameContent, congrArg (fun content => content.2.2) sameContent⟩

theorem not_nan (scanned : token.Scanned) {value : Binary64}
    (isNumber : token.literal = some (.number value)) : value.isNaN = false := by
  cases scanned with
  | @lexeme found wellFormed line =>
      cases found with
      | number numeral =>
          cases isNumber
          exact numeral.nearestTo_value.not_nan
      | symbol mark => cases isNumber
      | word letters => cases isNumber
      | string contents => cases isNumber
  | endOfText line => cases isNumber

theorem agrees_iff (leftScanned : left.Scanned) (rightScanned : right.Scanned) :
    left.agrees right = true ↔ left.lexeme = right.lexeme ∧ left.line = right.line := by
  constructor
  · intro same
    exact ⟨lexeme_eq_of_agrees same, line_eq_of_agrees same⟩
  · rintro ⟨lexemeEq, lineEq⟩
    obtain ⟨kindEq, literalEq⟩ := kind_literal_eq leftScanned rightScanned lexemeEq
    have same : left = right := by
      obtain ⟨kind, lexeme, literal, line⟩ := left
      cases kindEq
      cases lexemeEq
      cases literalEq
      cases lineEq
      rfl
    rw [← same]
    exact agrees_self fun _ => leftScanned.not_nan

end Scanned

end Token

/-! ## Scans -/

/-- Equality of scans, with the numbers of their tokens compared as numbers. -/
def Scan.agrees (left right : Scan) : Bool :=
  left.tokens.isEqv right.tokens Token.agrees && left.diagnostics == right.diagnostics

/-- The tokens of all scans. -/
def ScannedToken : Type :=
  { token : Token // ∃ source file, token ∈ (tokenize source file).tokens }

theorem ScannedToken.scanned (token : ScannedToken) : token.1.Scanned := by
  obtain ⟨source, file, member⟩ := token.2
  exact scanned_of_mem_tokens member

theorem isEqv_self {α : Type} {same : α → α → Bool} {items : List α}
    (reflexive : ∀ item ∈ items, same item item = true) : items.isEqv items same = true := by
  induction items with
  | nil => rfl
  | cons item items ih =>
      obtain ⟨atItem, later⟩ := List.forall_mem_cons.1 reflexive
      rw [List.isEqv, atItem, ih later]
      rfl

theorem isEqv_tokens_tokenize (source : String) (file other : Option String) :
    (tokenize source file).tokens.isEqv (tokenize source other).tokens Token.agrees = true := by
  have tokensEq : (tokenize source other).tokens = (tokenize source file).tokens := by
    rw [tokens_tokenize, tokens_tokenize]
  rw [tokensEq]
  apply isEqv_self
  intro token member
  have scanned := scanned_of_mem_tokens member
  exact (scanned.agrees_iff scanned).2 ⟨rfl, rfl⟩

/-- Tokens of any two scans are equal exactly if their texts and their lines are, and the
text decides the kind and the literal. No literal is a NaN, so that equality is an
equivalence on the tokens of scans and every scan equals itself. -/
theorem scanned_tokens_agree_iff :
    (∀ (source other : String) (file otherFile : Option String),
      ∀ left ∈ (tokenize source file).tokens, ∀ right ∈ (tokenize other otherFile).tokens,
        (left.agrees right = true ↔ left.lexeme = right.lexeme ∧ left.line = right.line) ∧
        (left.lexeme = right.lexeme → left.kind = right.kind ∧ left.literal = right.literal)) ∧
    (∀ (source : String) (file : Option String), ∀ token ∈ (tokenize source file).tokens,
      ∀ value, token.literal = some (.number value) → value.isNaN = false) ∧
    Equivalence (fun left right : ScannedToken => left.1.agrees right.1 = true) ∧
    ∀ (source : String) (file other : Option String),
      (tokenize source file).tokens.isEqv (tokenize source other).tokens Token.agrees = true ∧
      (tokenize source file).agrees (tokenize source file) = true := by
  have agreesIff : ∀ left right : ScannedToken,
      left.1.agrees right.1 = true ↔
        left.1.lexeme = right.1.lexeme ∧ left.1.line = right.1.line := by
    intro left right
    exact left.scanned.agrees_iff right.scanned
  refine ⟨?_, ?_, ⟨?_, ?_, ?_⟩, ?_⟩
  · intro source other file otherFile left leftMember right rightMember
    have leftScanned := scanned_of_mem_tokens leftMember
    have rightScanned := scanned_of_mem_tokens rightMember
    exact ⟨leftScanned.agrees_iff rightScanned, leftScanned.kind_literal_eq rightScanned⟩
  · intro source file token member value isNumber
    exact (scanned_of_mem_tokens member).not_nan isNumber
  · intro token
    exact (agreesIff token token).2 ⟨rfl, rfl⟩
  · intro left right same
    obtain ⟨lexemeEq, lineEq⟩ := (agreesIff left right).1 same
    exact (agreesIff right left).2 ⟨lexemeEq.symm, lineEq.symm⟩
  · intro left middle right same alsoSame
    obtain ⟨lexemeEq, lineEq⟩ := (agreesIff left middle).1 same
    obtain ⟨nextLexemeEq, nextLineEq⟩ := (agreesIff middle right).1 alsoSame
    exact (agreesIff left right).2 ⟨lexemeEq.trans nextLexemeEq, lineEq.trans nextLineEq⟩
  · intro source file other
    have tokensAgree := isEqv_tokens_tokenize source file
    refine ⟨tokensAgree other, ?_⟩
    rw [Scan.agrees, tokensAgree file, beq_self_eq_true]
    rfl

/-- One number in two texts and on two lines. -/
theorem same_number_on_two_lines :
    let source := "(1.50\n1.50"
    let number (line : UInt32) : Token :=
      ⟨.number, "1.50", some (.number ⟨0x3ff8000000000000⟩), line⟩
    (tokenize source none).tokens =
      [⟨.symbol .leftParen, "(", none, 1⟩, number 1, number 2, .endOfText 2] ∧
    (tokenize "1.50" (some "f")).tokens = [number 1, .endOfText 1] ∧
    (number 1).agrees (number 1) = true ∧ ¬ (number 2).agrees (number 1) = true ∧
    Binary64.isNaN ⟨0x3ff8000000000000⟩ = false ∧
    (tokenize source none).agrees (tokenize source none) = true := by
  intro source number
  have tokensEq : (tokenize source none).tokens =
      [⟨.symbol .leftParen, "(", none, 1⟩, number 1, number 2, .endOfText 2] := by
    decide +kernel
  have otherEq : (tokenize "1.50" (some "f")).tokens = [number 1, .endOfText 1] := by
    decide +kernel
  obtain ⟨agreesIff, notNaN, -, same⟩ := scanned_tokens_agree_iff
  have agreeing := agreesIff source "1.50" none (some "f")
  have literals := notNaN source none
  rw [tokensEq] at agreeing literals
  rw [otherEq] at agreeing
  refine ⟨tokensEq, otherEq, ?_, ?_, ?_, (same source none none).2⟩
  · exact (agreeing (number 1) (by simp) (number 1) (by simp)).1.2 ⟨rfl, rfl⟩
  · intro agree
    have lines := (agreeing (number 2) (by simp) (number 1) (by simp)).1.1 agree
    exact absurd lines.2 (by decide)
  · exact literals (number 1) (by simp) _ rfl

end LoxScanner
