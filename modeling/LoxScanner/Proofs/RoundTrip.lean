import LoxScanner.Proofs.Composition
import LoxScanner.Proofs.LongestMatch
import Mathlib.Data.List.Forall2

/-!
# Lexemes read back from a text

Lexemes written one after the other, with separators of blanks and comments between
them, are the tokens of the text that they make. A separator starts with a blank,
which continues no lexeme, so that each piece is the longest where it stands.
-/

namespace LoxScanner

/-! ## Separators -/

/-- Blanks, and comments each with the line feed that ends it. -/
inductive Separator : List Char → Prop
  | nil : Separator []
  | blank {c : Char} {rest : List Char} :
      c = ' ' ∨ c = '\t' ∨ c = '\r' ∨ c = '\n' → Separator rest →
      Separator (c :: rest)
  | comment {remark rest : List Char} :
      lineFeed ∉ remark → Separator rest →
      Separator ('/' :: '/' :: (remark ++ lineFeed :: rest))

/-- A separator, and possibly a comment that reaches the end of the text. -/
inductive LastSeparator : List Char → Prop
  | closed {gap : List Char} : Separator gap → LastSeparator gap
  | comment {gap remark : List Char} :
      Separator gap → lineFeed ∉ remark →
      LastSeparator (gap ++ '/' :: '/' :: remark)

/-- Whether a segment gives neither a token nor a diagnostic. -/
def Segment.IsSilent : Segment → Prop
  | space _ => True
  | comment _ => True
  | _ => False

namespace Segment.IsSilent

variable {piece : Segment}

theorem lexeme?_eq_none (isSilent : piece.IsSilent) : piece.lexeme? = none := by
  cases piece with
  | lexeme found => cases isSilent
  | _ => rfl

theorem cause?_eq_none (isSilent : piece.IsSilent) : piece.cause? = none := by
  cases piece with
  | stray character => cases isSilent
  | openString contents => cases isSilent
  | _ => rfl

end Segment.IsSilent

theorem Segment.not_isSilent_of_cause? {piece : Segment} {cause : Cause}
    (isCause : piece.cause? = some cause) : ¬ piece.IsSilent := by
  intro silent
  rw [silent.cause?_eq_none] at isCause
  cases isCause

section Silent

variable {silent : List Segment}

theorem filterMap_lexeme?_of_silent (allSilent : ∀ piece ∈ silent, piece.IsSilent) :
    silent.filterMap Segment.lexeme? = [] := by
  rw [List.filterMap_eq_nil_iff]
  intro piece member
  exact (allSilent piece member).lexeme?_eq_none

theorem filterMap_cause?_of_silent (allSilent : ∀ piece ∈ silent, piece.IsSilent) :
    silent.filterMap Segment.cause? = [] := by
  rw [List.filterMap_eq_nil_iff]
  intro piece member
  exact (allSilent piece member).cause?_eq_none

end Silent

theorem Separator.exists_tiling {gap rest : List Char} {pieces : List Segment}
    (separator : Separator gap) (tiling : Tiling Segment.Longest pieces rest) :
    ∃ silent : List Segment, (∀ piece ∈ silent, piece.IsSilent) ∧
      Tiling Segment.Longest (silent ++ pieces) (gap ++ rest) := by
  induction separator with
  | nil => exact ⟨[], by simp, tiling⟩
  | @blank c others isBlank _ ih =>
      obtain ⟨silent, allSilent, silentTiling⟩ := ih
      have longest : (Segment.space c).Longest (others ++ rest) := ⟨isBlank, trivial⟩
      refine ⟨.space c :: silent, ?_, .cons longest silentTiling⟩
      exact List.forall_mem_cons.2 ⟨trivial, allSilent⟩
  | @comment remark others oneLine _ ih =>
      obtain ⟨silent, allSilent, silentTiling⟩ := ih
      have fed : Tiling Segment.Longest (.space lineFeed :: (silent ++ pieces))
          (lineFeed :: (others ++ rest)) :=
        .cons (Segment.longest_lineFeed (others ++ rest)) silentTiling
      have longest : (Segment.comment remark).Longest (lineFeed :: (others ++ rest)) := by
        refine ⟨oneLine, ?_⟩
        intro c isHead
        exact (Option.some.inj isHead).symm
      have whole := Tiling.cons longest fed
      refine ⟨.comment remark :: .space lineFeed :: silent, ?_, ?_⟩
      · exact List.forall_mem_cons.2 ⟨trivial, List.forall_mem_cons.2 ⟨trivial, allSilent⟩⟩
      · simpa [Segment.text] using whole

theorem LastSeparator.exists_tiling {gap : List Char} (separator : LastSeparator gap) :
    ∃ silent : List Segment, (∀ piece ∈ silent, piece.IsSilent) ∧
      Tiling Segment.Longest silent gap := by
  cases separator with
  | closed closed =>
      obtain ⟨silent, allSilent, tiling⟩ := closed.exists_tiling .nil
      rw [List.append_nil, List.append_nil] at tiling
      exact ⟨silent, allSilent, tiling⟩
  | @comment before remark closed oneLine =>
      have longest : (Segment.comment remark).Longest [] := ⟨oneLine, by simp [Segment.EndsBefore]⟩
      have last := Tiling.cons longest .nil
      rw [List.append_nil] at last
      obtain ⟨silent, allSilent, tiling⟩ := closed.exists_tiling last
      refine ⟨silent ++ [.comment remark], ?_, tiling⟩
      rw [List.forall_mem_append]
      exact ⟨allSilent, List.forall_mem_singleton.2 trivial⟩

/-! ## Encodings -/

/-- Lexemes to be written one after the other: a separator before them, and each
with the separator after it. -/
structure Encoding where
  lead : List Char
  items : List (Lexeme × List Char)

namespace Encoding

def text (encoding : Encoding) : List Char :=
  encoding.lead ++ encoding.items.flatMap fun item => item.1.text ++ item.2

def separators (encoding : Encoding) : List (List Char) :=
  encoding.lead :: encoding.items.map Prod.snd

/-- Lexemes of the language between separators. Two lexemes are kept apart, and
what is not empty after a lexeme starts with a blank. -/
structure WellFormed (encoding : Encoding) : Prop where
  lexemes : ∀ item ∈ encoding.items, item.1.WellFormed
  closed : ∀ gap ∈ encoding.separators.dropLast, Separator gap
  last : ∀ gap, encoding.separators.getLast? = some gap → LastSeparator gap
  apart : ∀ gap ∈ (encoding.items.map Prod.snd).dropLast, gap ≠ []
  blank_first : ∀ gap ∈ encoding.items.map Prod.snd, ∀ c, gap.head? = some c →
    c = ' ' ∨ c = '\t' ∨ c = '\r' ∨ c = '\n'

variable {lead : List Char} {item : Lexeme × List Char}
  {items : List (Lexeme × List Char)}

theorem text_cons (lead : List Char) (item : Lexeme × List Char)
    (items : List (Lexeme × List Char)) :
    (Encoding.mk lead (item :: items)).text =
      lead ++ (item.1.text ++ (Encoding.mk item.2 items).text) := by
  simp [text]

theorem WellFormed.tail (wellFormed : (Encoding.mk lead (item :: items)).WellFormed) :
    (Encoding.mk item.2 items).WellFormed where
  lexemes other member := wellFormed.lexemes other (List.mem_cons_of_mem item member)
  closed gap member := wellFormed.closed gap (List.mem_cons_of_mem lead member)
  last gap isLast := by
    apply wellFormed.last gap
    rw [← isLast]
    exact List.getLast?_cons_cons
  apart gap member := by
    cases items with
    | nil => cases member
    | cons next others => exact wellFormed.apart gap (List.mem_cons_of_mem item.2 member)
  blank_first gap member := wellFormed.blank_first gap (List.mem_cons_of_mem item.2 member)

/-- After a lexeme the text ends or goes on with a blank. -/
theorem WellFormed.head?_tail (wellFormed : (Encoding.mk lead (item :: items)).WellFormed) :
    ∀ c, (Encoding.mk item.2 items).text.head? = some c → c.isWhitespace = true := by
  intro c isHead
  have blankFirst := wellFormed.blank_first item.2 (List.mem_cons_self ..) c
  cases gapEq : item.2 with
  | cons first others =>
      rw [gapEq] at isHead blankFirst
      have same : first = c := Option.some.inj isHead
      subst same
      exact isWhitespace_iff.2 (blankFirst rfl)
  | nil =>
      cases items with
      | nil =>
          rw [gapEq] at isHead
          cases isHead
      | cons next others =>
          have notEmpty : item.2 ≠ [] := wellFormed.apart item.2 (List.mem_cons_self ..)
          exact absurd gapEq notEmpty

end Encoding

/-- An encoding is tiled by its lexemes and by segments that give nothing. -/
theorem Encoding.WellFormed.exists_tiling {encoding : Encoding}
    (wellFormed : encoding.WellFormed) :
    ∃ pieces : List Segment, Tiling Segment.Longest pieces encoding.text ∧
      pieces.filterMap Segment.lexeme? = encoding.items.map Prod.fst ∧
      pieces.filterMap Segment.cause? = [] := by
  obtain ⟨lead, items⟩ := encoding
  induction items generalizing lead with
  | nil =>
      obtain ⟨silent, allSilent, tiling⟩ := (wellFormed.last lead rfl).exists_tiling
      refine ⟨silent, ?_, filterMap_lexeme?_of_silent allSilent,
        filterMap_cause?_of_silent allSilent⟩
      simpa [text] using tiling
  | cons item items ih =>
      obtain ⟨pieces, tiling, lexemesEq, causesEq⟩ := ih item.2 wellFormed.tail
      have leadSeparator : Separator lead :=
        wellFormed.closed lead (List.mem_cons_self ..)
      have longest : (Segment.lexeme item.1).Longest (Encoding.mk item.2 items).text :=
        ⟨wellFormed.lexemes item (List.mem_cons_self ..),
          Lexeme.endsBefore_of_blank wellFormed.head?_tail⟩
      obtain ⟨silent, allSilent, whole⟩ :=
        leadSeparator.exists_tiling (Tiling.cons longest tiling)
      refine ⟨silent ++ .lexeme item.1 :: pieces, ?_, ?_, ?_⟩
      · rw [text_cons]
        exact whole
      · have found : (Segment.lexeme item.1 :: pieces).filterMap Segment.lexeme? =
            item.1 :: pieces.filterMap Segment.lexeme? := rfl
        rw [List.filterMap_append, filterMap_lexeme?_of_silent allSilent, found, lexemesEq]
        rfl
      · have none : (Segment.lexeme item.1 :: pieces).filterMap Segment.cause? =
            pieces.filterMap Segment.cause? := rfl
        rw [List.filterMap_append, filterMap_cause?_of_silent allSilent, none, causesEq]
        rfl

theorem Encoding.WellFormed.tokenize_eq {encoding : Encoding}
    (wellFormed : encoding.WellFormed) (file : Option String) :
    (tokenize (String.ofList encoding.text) file).diagnostics = [] ∧
      (tokenize (String.ofList encoding.text) file).tokens.map Token.content =
        (encoding.items.map fun item => item.1.content) ++ [(.endOfText, "", none)] := by
  obtain ⟨pieces, tiling, lexemesEq, causesEq⟩ := wellFormed.exists_tiling
  have segmentsEq : segments (String.ofList encoding.text).toList = pieces := by
    rw [String.toList_ofList, tiling.segments_eq]
  refine ⟨?_, ?_⟩
  · rw [← List.map_eq_nil_iff, map_cause_diagnostics_tokenize, segmentsEq, causesEq]
  · rw [map_content_tokens_tokenize, segmentsEq, lexemesEq, List.map_map]
    rfl

/-! ## Tokens written again -/

/-- Tokens with what is written after each. -/
def rewrittenText (items : List (Token × List Char)) : List Char :=
  items.flatMap fun item => item.1.lexeme.toList ++ item.2

/-- Gaps of one space or one line feed, the last of which may be empty. -/
structure SingleGaps (gaps : List (List Char)) : Prop where
  inner : ∀ gap ∈ gaps.dropLast, gap = [' '] ∨ gap = ['\n']
  last : ∀ gap, gaps.getLast? = some gap → gap = [] ∨ gap = [' '] ∨ gap = ['\n']

namespace SingleGaps

variable {gaps : List (List Char)}

theorem mem (single : SingleGaps gaps) :
    ∀ gap ∈ gaps, gap = [] ∨ gap = [' '] ∨ gap = ['\n'] := by
  intro gap member
  have notNil : gaps ≠ [] := List.ne_nil_of_mem member
  rw [← List.dropLast_append_getLast notNil, List.mem_append, List.mem_singleton] at member
  rcases member with inner | rfl
  · exact Or.inr (single.inner gap inner)
  · exact single.last _ (List.getLast?_eq_some_getLast notNil)

theorem separator {gap : List Char} (isGap : gap = [] ∨ gap = [' '] ∨ gap = ['\n']) :
    Separator gap := by
  rcases isGap with rfl | rfl | rfl
  · exact .nil
  · exact .blank (Or.inl rfl) .nil
  · exact .blank (Or.inr (Or.inr (Or.inr rfl))) .nil

/-- Lexemes with single gaps between them are an encoding. -/
theorem wellFormed {lexemes : List Lexeme} (single : SingleGaps gaps)
    (lengthEq : gaps.length = lexemes.length)
    (allWellFormed : ∀ found ∈ lexemes, found.WellFormed) :
    (Encoding.mk [] (lexemes.zip gaps)).WellFormed := by
  have gapsEq : (lexemes.zip gaps).map Prod.snd = gaps :=
    List.map_snd_zip (Nat.le_of_eq lengthEq)
  have allSeparators : ∀ gap ∈ [] :: gaps, Separator gap := by
    intro gap member
    rcases List.mem_cons.1 member with rfl | inGaps
    · exact .nil
    · exact separator (single.mem gap inGaps)
  refine ⟨?_, ?_, ?_, ?_, ?_⟩
  · intro item member
    exact allWellFormed item.1 (List.of_mem_zip member).1
  · intro gap member
    rw [Encoding.separators, gapsEq] at member
    exact allSeparators gap (List.dropLast_subset _ member)
  · intro gap isLast
    rw [Encoding.separators, gapsEq] at isLast
    exact .closed (allSeparators gap (List.mem_of_getLast? isLast))
  · intro gap member
    rw [gapsEq] at member
    rcases single.inner gap member with rfl | rfl
    · exact List.cons_ne_nil _ _
    · exact List.cons_ne_nil _ _
  · intro gap member c isHead
    rw [gapsEq] at member
    rcases single.mem gap member with rfl | rfl | rfl
    · cases isHead
    · exact Or.inl (Option.some.inj isHead).symm
    · exact Or.inr (Or.inr (Or.inr (Option.some.inj isHead).symm))

end SingleGaps

theorem flatMap_zip_append {α : Type} (read : α → List Char) (items : List α)
    (gaps : List (List Char)) :
    (items.zip gaps).flatMap (fun item => read item.1 ++ item.2) =
      (List.zipWith (· ++ ·) (items.map read) gaps).flatten := by
  rw [List.zip, List.flatMap_def, List.map_zipWith, List.zipWith_map_left]

/-- The tokens of a scan, written again with single gaps, are an encoding of its
lexemes. -/
theorem exists_encoding_of_tokens {source : String} {file : Option String}
    {items : List (Token × List Char)}
    (tokensEq : items.map Prod.fst = (tokenize source file).tokens.dropLast)
    (single : SingleGaps (items.map Prod.snd)) :
    ∃ encoding : Encoding, encoding.WellFormed ∧
      encoding.text = rewrittenText items ∧
      (encoding.items.map fun item => item.1.content) ++ [(.endOfText, "", none)] =
        (tokenize source file).tokens.map Token.content := by
  have contentsEq := map_content_tokens_tokenize source file
  have allWellFormed : ∀ found ∈ (segments source.toList).filterMap Segment.lexeme?,
      found.WellFormed := by
    intro found member
    exact wellFormed_of_mem_lexemes member
  generalize (segments source.toList).filterMap Segment.lexeme? = lexemes at *
  have bodyEq : (items.map Prod.fst).map Token.content = lexemes.map Lexeme.content := by
    rw [tokensEq, List.map_dropLast, contentsEq, List.dropLast_concat]
  have textsEq : (items.map Prod.fst).map (fun token => token.lexeme.toList) =
      lexemes.map Lexeme.text := by
    have read := congrArg (List.map fun content => content.2.1.toList) bodyEq
    simpa [List.map_map, Function.comp_def, Token.content, Lexeme.content] using read
  have lengthEq : items.length = lexemes.length := by
    simpa using congrArg List.length bodyEq
  have lexemesEq : (lexemes.zip (items.map Prod.snd)).map Prod.fst = lexemes :=
    List.map_fst_zip (by rw [List.length_map, lengthEq])
  have itemsEq : (items.map Prod.fst).zip (items.map Prod.snd) = items :=
    (List.zip_of_prod rfl rfl).symm
  refine ⟨⟨[], lexemes.zip (items.map Prod.snd)⟩, ?_, ?_, ?_⟩
  · exact single.wellFormed (by rw [List.length_map, lengthEq]) allWellFormed
  · have rewritten := flatMap_zip_append (fun token : Token => token.lexeme.toList)
      (items.map Prod.fst) (items.map Prod.snd)
    have encoded := flatMap_zip_append Lexeme.text lexemes (items.map Prod.snd)
    rw [itemsEq, textsEq, ← encoded] at rewritten
    exact rewritten.symm
  · have read := congrArg (List.map Lexeme.content) lexemesEq
    rw [List.map_map] at read
    rw [contentsEq, ← read]
    rfl

/-! ## Reading back -/

theorem Token.eq_token_of_content {token : Token} {found : Lexeme}
    (same : token.content = found.content) : token = found.token token.line := by
  obtain ⟨kind, lexeme, literal, line⟩ := token
  cases same
  rfl

theorem forall₂_of_map_content_eq {tokens : List Token}
    {items : List (Lexeme × List Char)}
    (same : tokens.map Token.content = items.map fun item => item.1.content) :
    List.Forall₂ (fun token item => token.content = item.1.content) tokens items := by
  rw [← List.forall₂_eq_eq_eq, List.forall₂_map_left_iff,
    List.forall₂_map_right_iff] at same
  exact same

/-- The text of an encoding is scanned into the lexemes that it encodes, without a
diagnostic. So the lexemes of any scan, written again with single gaps between them,
are scanned into the same kinds, lexemes and literals. -/
theorem tokenize_encoding (file : Option String) :
    (∀ encoding : Encoding, encoding.WellFormed →
      (tokenize (String.ofList encoding.text) file).diagnostics = [] ∧
      ∃ (body : List Token) (line : UInt32),
        (tokenize (String.ofList encoding.text) file).tokens =
          body ++ [⟨.endOfText, "", none, line⟩] ∧
        List.Forall₂
          (fun token item => token.lexeme = String.ofList item.1.text ∧
            token.content = item.1.content ∧ token.Classifies item.1)
          body encoding.items) ∧
    ∀ (source : String) (label : Option String) (items : List (Token × List Char)),
      items.map Prod.fst = (tokenize source label).tokens.dropLast →
      SingleGaps (items.map Prod.snd) →
      (tokenize (String.ofList (rewrittenText items)) file).diagnostics = [] ∧
      (tokenize (String.ofList (rewrittenText items)) file).tokens.map Token.content =
        (tokenize source label).tokens.map Token.content := by
  refine ⟨?_, ?_⟩
  · intro encoding wellFormed
    obtain ⟨noDiagnostics, contentsEq⟩ := wellFormed.tokenize_eq file
    have tokensEq := tokens_tokenize (String.ofList encoding.text) file
    rw [tokensEq, List.map_append] at contentsEq
    have bodyEq := List.append_cancel_right contentsEq
    refine ⟨noDiagnostics, _, _, tokensEq, (forall₂_of_map_content_eq bodyEq).imp ?_⟩
    intro token item same
    have tokenEq := Token.eq_token_of_content same
    have classifies := item.1.classifies_token token.line
    rw [← tokenEq] at classifies
    exact ⟨congrArg (fun content => content.2.1) same, same, classifies⟩
  · intro source label items tokensEq single
    obtain ⟨encoding, wellFormed, textEq, contentsEq⟩ :=
      exists_encoding_of_tokens tokensEq single
    rw [← textEq, ← contentsEq]
    exact wellFormed.tokenize_eq file

/-- A quote in a comment, a line feed in a string, and a comment that the text's end
closes; and three tokens written again with both gaps. -/
theorem encoding_with_comments :
    (∃ encoding : Encoding, encoding.WellFormed ∧
      encoding.text = "//\"\n\"\né\"\tor ///".toList ∧
      (tokenize (String.ofList encoding.text) none).diagnostics = []) ∧
    ∃ items : List (Token × List Char),
      items.map Prod.fst = (tokenize "a==\"b\"" none).tokens.dropLast ∧
      SingleGaps (items.map Prod.snd) ∧
      rewrittenText items = "a ==\n\"b\"".toList ∧
      (tokenize (String.ofList (rewrittenText items)) none).tokens.map Token.content =
        (tokenize "a==\"b\"" none).tokens.map Token.content := by
  obtain ⟨encodings, rewritings⟩ := tokenize_encoding none
  refine ⟨⟨⟨['/', '/', '"', '\n'],
      [(.string ['\n', 'é'], ['\t']), (.word ['o', 'r'], [' ', '/', '/', '/'])]⟩, ?_⟩,
    ⟨[(⟨.identifier, "a", none, 1⟩, [' ']), (⟨.symbol .equalEqual, "==", none, 1⟩, ['\n']),
      (⟨.string, "\"b\"", some (.string "b"), 1⟩, [])], ?_⟩⟩
  · have isString : (Lexeme.string ['\n', 'é']).WellFormed := by
      simp [Lexeme.WellFormed, quote]
    have isWord : (Lexeme.word ['o', 'r']).WellFormed := ⟨'o', ['r'], rfl, rfl, by simp; rfl⟩
    have first : Separator ['/', '/', '"', '\n'] :=
      @Separator.comment ['"'] [] (by decide) .nil
    have second : Separator ['\t'] := .blank (by simp) .nil
    have third : LastSeparator [' ', '/', '/', '/'] :=
      @LastSeparator.comment [' '] ['/'] (.blank (by simp) .nil) (by decide)
    have wellFormed : (Encoding.mk ['/', '/', '"', '\n']
        [(.string ['\n', 'é'], ['\t']),
          (.word ['o', 'r'], [' ', '/', '/', '/'])]).WellFormed := by
      refine ⟨?_, ?_, ?_, ?_, ?_⟩
      · simp [isString, isWord]
      · simp [Encoding.separators, first, second]
      · simp [Encoding.separators, third]
      · simp
      · simp
    exact ⟨wellFormed, rfl, (encodings _ wellFormed).1⟩
  · have tokensEq : [Token.mk .identifier "a" none 1, ⟨.symbol .equalEqual, "==", none, 1⟩,
        ⟨.string, "\"b\"", some (.string "b"), 1⟩] =
        (tokenize "a==\"b\"" none).tokens.dropLast := by
      decide +kernel
    have single : SingleGaps [[' '], ['\n'], []] := ⟨by simp, by simp⟩
    refine ⟨tokensEq, single, by decide +kernel, ?_⟩
    exact And.right (rewritings _ none _ tokensEq single)

end LoxScanner
