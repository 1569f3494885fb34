import LoxScanner.Proofs.Placement

/-!
# Longest matches

A token's text is the longest prefix of the text from its place that is a lexeme of
any shape, and its kind and literal are those of that lexeme. A competing prefix
has the same first character, hence the same shape, so that each shape needs only
be compared with itself.
-/

namespace LoxScanner

/-- A well-formed lexeme at the start of a text, and no other such lexeme is
longer. -/
structure Lexeme.IsLongestPrefix (found : Lexeme) (text : List Char) : Prop where
  wellFormed : found.WellFormed
  starts : found.text <+: text
  longest : ∀ other : Lexeme, other.WellFormed → other.text <+: text →
    other.text.length ≤ found.text.length

/-! ## Numerals -/

namespace Numeral

theorem whole_split (text : List Char) :
    (split text).1.whole = text.takeWhile Char.isDigit := by
  unfold split
  dsimp only
  split
  · split <;> rfl
  · rfl

theorem length_whole_le_length_text (numeral : Numeral) :
    numeral.whole.length ≤ numeral.text.length := by
  obtain ⟨whole, fraction⟩ := numeral
  cases fraction with
  | nil => exact Nat.le_refl _
  | cons digit others => simp [text]

theorem length_text_le_split {numeral : Numeral} (wellFormed : numeral.WellFormed)
    (tail : List Char) :
    numeral.text.length ≤ (split (numeral.text ++ tail)).1.text.length := by
  obtain ⟨whole, fraction⟩ := numeral
  cases fraction with
  | nil =>
      have taken : (whole ++ tail).takeWhile Char.isDigit =
          whole ++ tail.takeWhile Char.isDigit :=
        List.takeWhile_append_of_pos wellFormed.whole_digits
      have shorter := length_whole_le_length_text (split (whole ++ tail)).1
      rw [whole_split, taken, List.length_append] at shorter
      exact Nat.le_trans (Nat.le_add_right _ _) shorter
  | cons digit others =>
      rw [split_text_append_of_fraction wellFormed]
      simp [text]

end Numeral

/-! ## Each shape against itself -/

namespace Lexeme

variable {after tail : List Char}

private theorem symbol_length_le {mark other : Symbol}
    (ends : (symbol mark).EndsBefore after) (sameSingle : other.single = mark.single)
    (whole : other.spelling ++ tail = mark.spelling ++ after) :
    other.spelling.length ≤ mark.spelling.length := by
  rcases mark.single_or_longer with ⟨single, c, spelling⟩ | ⟨_, c, spelling⟩
  · rcases other.single_or_longer with ⟨_, d, otherSpelling⟩ | ⟨extended, d, otherSpelling⟩
    · simp [spelling, otherSpelling]
    · -- The longer form would go on with the equals sign that is not there.
      rw [sameSingle, single] at extended
      simp only [spelling, otherSpelling, List.cons_append, List.nil_append,
        List.cons.injEq] at whole
      refine absurd ?_ (ends.1 (by simp [extended]))
      rw [← whole.2, List.head?_cons]
  · rcases other.single_or_longer with ⟨_, d, otherSpelling⟩ | ⟨_, d, otherSpelling⟩
    · simp [spelling, otherSpelling]
    · simp [spelling, otherSpelling]

private theorem word_length_le {letters others : List Char}
    (ends : (word letters).EndsBefore after) (wellFormed : (word others).WellFormed)
    (whole : others ++ tail = letters ++ after) :
    others.length ≤ letters.length := by
  rcases List.append_eq_append_iff.1 whole with
    ⟨extra, lettersEq, _⟩ | ⟨extra, othersEq, afterEq⟩
  · simp [lettersEq]
  · cases extra with
    | nil => simp [othersEq]
    | cons c more =>
        have outside : isWordChar c = false := ends c (by simp [afterEq])
        have inside : isWordChar c = true :=
          isWordChar_of_mem wellFormed c (by simp [othersEq])
        rw [outside] at inside
        cases inside

private theorem number_length_le {numeral other : Numeral}
    (longest : (Segment.lexeme (number numeral)).Longest after)
    (wellFormed : other.WellFormed)
    (whole : other.text ++ tail = numeral.text ++ after) :
    other.text.length ≤ numeral.text.length := by
  have shorter := Numeral.length_text_le_split wellFormed tail
  rw [whole, Numeral.split_text_append_of_endsBefore longest.wellFormed longest.ends]
    at shorter
  exact shorter

private theorem string_length_le {contents others : List Char}
    (wellFormed : (string contents).WellFormed)
    (otherWellFormed : (string others).WellFormed)
    (whole : (string others).text ++ tail = (string contents).text ++ after) :
    (string others).text.length ≤ (string contents).text.length := by
  have cutFound : Segment.cut quote (contents ++ [quote] ++ after) =
      (.lexeme (string contents), after) :=
    Segment.cut_eq_of_longest ⟨wellFormed, trivial⟩ rfl
  have cutOther : Segment.cut quote (contents ++ [quote] ++ after) =
      (.lexeme (string others), tail) :=
    Segment.cut_eq_of_longest ⟨otherWellFormed, trivial⟩ whole
  rw [cutFound] at cutOther
  cases cutOther
  exact Nat.le_refl _

/-- A lexeme that the text after it does not continue is the longest there. -/
theorem isLongestPrefix_of_longest {found : Lexeme}
    (longest : (Segment.lexeme found).Longest after) :
    found.IsLongestPrefix (found.text ++ after) := by
  refine ⟨longest.wellFormed, List.prefix_append _ _, ?_⟩
  rintro other otherWellFormed ⟨tail, whole⟩
  have sameLead : (Segment.lexeme other).lead = (Segment.lexeme found).lead :=
    Segment.lead_eq_of_append_eq_append longest.wellFormed otherWellFormed whole
  cases found with
  | symbol mark =>
      cases other with
      | symbol otherMark =>
          exact symbol_length_le longest.ends (Lead.mark.inj sameLead) whole
      | word others => cases sameLead
      | number otherNumeral => cases sameLead
      | string others => cases sameLead
  | word letters =>
      cases other <;> cases sameLead
      exact word_length_le longest.ends otherWellFormed whole
  | number numeral =>
      cases other <;> cases sameLead
      exact number_length_le longest otherWellFormed whole
  | string contents =>
      cases other <;> cases sameLead
      exact string_length_le longest.wellFormed otherWellFormed whole

end Lexeme

/-! ## Kinds and literals -/

/-- Whether a token has the kind and the literal of a lexeme. A word is a keyword
if it is spelled as that keyword and an identifier if it is spelled as none; a
string carries its contents and a number its value. -/
def Token.Classifies (token : Token) : Lexeme → Prop
  | .symbol mark => token.kind = .symbol mark ∧ token.literal = none
  | .word letters =>
      (∀ reserved : Keyword,
        token.kind = .keyword reserved ↔ letters = reserved.spelling) ∧
      (token.kind = .identifier ↔ ∀ reserved : Keyword, letters ≠ reserved.spelling) ∧
      token.literal = none
  | .number numeral =>
      token.kind = .number ∧ token.literal = some (.number numeral.value)
  | .string contents =>
      token.kind = .string ∧ token.literal = some (.string (String.ofList contents))

theorem Keyword.ofText?_spelling (keyword : Keyword) :
    ofText? keyword.spelling = some keyword :=
  ofText?_eq_some_iff.2 rfl

namespace Token.Kind

theorem ofWord_eq_keyword_iff {word : List Char} {reserved : Keyword} :
    ofWord word = keyword reserved ↔ word = reserved.spelling := by
  unfold ofWord
  constructor
  · intro isKeyword
    split at isKeyword
    next other found =>
      cases isKeyword
      exact (Keyword.ofText?_eq_some_iff.1 found).symm
    next => cases isKeyword
  · rintro rfl
    rw [Keyword.ofText?_spelling]

theorem ofWord_eq_identifier_iff {word : List Char} :
    ofWord word = identifier ↔ ∀ reserved : Keyword, word ≠ reserved.spelling := by
  constructor
  · rintro isIdentifier reserved spelled
    rw [ofWord_eq_keyword_iff.2 spelled] at isIdentifier
    cases isIdentifier
  · intro unreserved
    unfold ofWord
    split
    next reserved found =>
      exact absurd (Keyword.ofText?_eq_some_iff.1 found).symm (unreserved reserved)
    next => rfl

end Token.Kind

namespace Lexeme

theorem classifies_token (found : Lexeme) (line : UInt32) :
    (found.token line).Classifies found := by
  cases found with
  | symbol mark => exact ⟨rfl, rfl⟩
  | word letters =>
      exact ⟨fun _ => Token.Kind.ofWord_eq_keyword_iff,
        Token.Kind.ofWord_eq_identifier_iff, rfl⟩
  | number numeral => exact ⟨rfl, rfl⟩
  | string contents => exact ⟨rfl, rfl⟩

theorem word_spelling_wellFormed (reserved : Keyword) :
    (word reserved.spelling).WellFormed := by
  cases reserved <;> exact ⟨_, _, rfl, rfl, List.all_eq_true.1 rfl⟩

theorem isKeyword_token_iff {found : Lexeme} (wellFormed : found.WellFormed)
    (line : UInt32) :
    (found.token line).isKeyword = true ↔
      ∃ reserved : Keyword, found.text = reserved.spelling := by
  unfold Token.isKeyword
  simp only [token, String.toList_ofList, beq_iff_eq, Option.map_eq_some_iff]
  constructor
  · rintro ⟨reserved, spelled, _⟩
    exact ⟨reserved, (Keyword.ofText?_eq_some_iff.1 spelled).symm⟩
  · rintro ⟨reserved, textEq⟩
    have isWord : Segment.lexeme found = .lexeme (.word reserved.spelling) :=
      Segment.eq_of_text_eq (word_spelling_wellFormed reserved) wellFormed textEq
    cases isWord
    refine ⟨reserved, Keyword.ofText?_spelling reserved, ?_⟩
    exact (Token.Kind.ofWord_eq_keyword_iff.2 rfl).symm

end Lexeme

/-! ## The tokens of a scan -/

/-- The tokens before that of the end are those of the lexemes among the placed
segments. Where such a token stands no comment starts, its text is the longest
prefix that is a lexeme, its kind and literal are those of that lexeme, and it is a
keyword exactly if its text is a reserved word. -/
theorem tokenize_longest_match (source : String) (file : Option String) :
    (tokenize source file).tokens =
        (placements source.toList).filterMap Placement.token? ++
          [.endOfText (lineAfter 1 source.toList)] ∧
    ∀ place ∈ placements source.toList, ∀ token : Token,
      place.token? = some token →
        ∃ (found : Lexeme) (here : List Char),
          place.piece = .lexeme found ∧
          source.toList = place.before ++ here ∧
          ¬ ['/', '/'] <+: here ∧
          found.IsLongestPrefix here ∧
          token.lexeme.toList = found.text ∧
          token.Classifies found ∧
          (token.isKeyword = true ↔
            ∃ reserved : Keyword, token.lexeme.toList = reserved.spelling) := by
  refine ⟨tokens_tokenize source file, ?_⟩
  intro place member token isToken
  obtain ⟨found, isLexeme, rfl⟩ := place.exists_lexeme_of_token? isToken
  have longest := longest_of_mem_placements member
  have whole := before_append_of_mem_placements member
  rw [isLexeme] at longest whole
  have lexemeEq : (found.token place.line).lexeme.toList = found.text :=
    String.toList_ofList
  refine ⟨found, found.text ++ place.after, isLexeme, whole.symm, ?_,
    Lexeme.isLongestPrefix_of_longest longest, lexemeEq,
    found.classifies_token place.line, ?_⟩
  · rintro ⟨rest, isComment⟩
    exact longest.fits.append_ne_comment (by simp) isComment.symm
  · rw [lexemeEq]
    exact Lexeme.isKeyword_token_iff longest.wellFormed place.line

end LoxScanner
