import LoxScanner.Proofs.Lexer

/-!
# A scan loses nothing

The segments of a text make it up without a gap. The tokens of a scan are the
lexemes among them, its diagnostics are the faults among them, both in order, and
blanks and comments are all that gives neither.
-/

namespace LoxScanner

theorem Token.Kind.ofWord_ne_endOfText (word : List Char) :
    ofWord word ≠ endOfText := by
  unfold ofWord
  split <;> simp

theorem Lexeme.token_kind_ne_endOfText (found : Lexeme) (line : UInt32) :
    (found.token line).kind ≠ .endOfText := by
  cases found with
  | symbol mark => simp [token, kind]
  | word letters => exact Token.Kind.ofWord_ne_endOfText letters
  | number numeral => simp [token, kind]
  | string contents => simp [token, kind]

theorem Lexeme.token_lexeme_ne_empty {found : Lexeme} (wellFormed : found.WellFormed)
    (line : UInt32) : (found.token line).lexeme ≠ "" := by
  have textNeNil : (Segment.lexeme found).text ≠ [] := Segment.text_ne_nil wellFormed
  rw [token, ne_eq, String.ofList_eq_empty_iff]
  exact textNeNil

theorem kind_ne_endOfText_of_mem_dropLast {source : String} {file : Option String}
    {token : Token} (member : token ∈ (tokenize source file).tokens.dropLast) :
    token.kind ≠ .endOfText := by
  rw [tokens_tokenize, List.dropLast_concat] at member
  obtain ⟨place, _, isToken⟩ := List.mem_filterMap.1 member
  obtain ⟨found, _, rfl⟩ := place.exists_lexeme_of_token? isToken
  exact found.token_kind_ne_endOfText place.line

theorem map_lexeme_filterMap_token? (text : List Char) :
    ((placements text).filterMap Placement.token?).map Token.lexeme =
      ((segments text).filterMap Segment.lexeme?).map fun found =>
        String.ofList found.text := by
  rw [List.map_filterMap, List.map_filterMap, ← filterMap_placements]
  congr 1
  funext place
  simp only [Placement.token?, Option.map_map]
  rfl

/-- The text is cut into well-formed segments, each by its text of one shape only.
The tokens are the lexemes in order and the token of the end, the diagnostics are
the faults in order, and the scan over byte offsets finds the same without a
fault. -/
theorem tokenize_lossless (source : String) (file : Option String) :
    ∃ pieces : List Segment,
      pieces.flatMap Segment.text = source.toList ∧
      Tiling Segment.Fits pieces source.toList ∧
      (∀ piece ∈ pieces, piece.text ≠ [] ∧
        ∀ other : Segment, other.WellFormed → other.text = piece.text →
          other = piece) ∧
      (∃ body : List Token,
        (tokenize source file).tokens =
          body ++ [⟨.endOfText, "", none, lineAfter 1 source.toList⟩] ∧
        body.map Token.lexeme =
          (pieces.filterMap Segment.lexeme?).map (fun found =>
            String.ofList found.text) ∧
        ∀ token ∈ body, token.kind ≠ .endOfText ∧ token.lexeme ≠ "") ∧
      (tokenize source file).diagnostics.map Diagnostic.cause =
        pieces.filterMap Segment.cause? ∧
      (Lexer.ofSource source file).scanTokens = .ok (tokenize source file) := by
  have tiling := segments_tiling source.toList
  refine ⟨segments source.toList, tiling.flatMap_text,
    tiling.imp fun _ _ => Segment.Longest.fits, ?_, ?_, ?_,
    Lexer.scanTokens_ofSource source file⟩
  · intro piece member
    have wellFormed := wellFormed_of_mem_segments member
    refine ⟨Segment.text_ne_nil wellFormed, ?_⟩
    intro other otherWellFormed same
    exact Segment.eq_of_text_eq wellFormed otherWellFormed same
  · refine ⟨(placements source.toList).filterMap Placement.token?,
      tokens_tokenize source file, map_lexeme_filterMap_token? source.toList, ?_⟩
    intro token member
    obtain ⟨place, placeMember, isToken⟩ := List.mem_filterMap.1 member
    obtain ⟨found, isLexeme, rfl⟩ := place.exists_lexeme_of_token? isToken
    have longest := longest_of_mem_placements placeMember
    rw [isLexeme] at longest
    exact ⟨found.token_kind_ne_endOfText place.line,
      Lexeme.token_lexeme_ne_empty longest.wellFormed place.line⟩
  · exact map_cause_diagnostics_tokenize source file

end LoxScanner
