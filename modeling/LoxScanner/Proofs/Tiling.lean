import LoxScanner.Proofs.Cut

/-!
# Tilings of a text by segments

A tiling is a list of segments whose texts follow each other without a gap, each
segment standing in a stated relation to the text after it. The segments of a
scan tile its text, each of them the longest where it stands.
-/

namespace LoxScanner

/-- `Tiling fits pieces text` means that the texts of `pieces` one after the other
are `text`, and that each piece and the text after it satisfy `fits`. -/
inductive Tiling (fits : Segment → List Char → Prop) :
    List Segment → List Char → Prop
  | nil : Tiling fits [] []
  | cons {piece : Segment} {pieces : List Segment} {rest : List Char} :
      fits piece rest → Tiling fits pieces rest →
      Tiling fits (piece :: pieces) (piece.text ++ rest)

namespace Tiling

variable {fits weaker : Segment → List Char → Prop}
  {pieces : List Segment} {text : List Char}

theorem imp (implies : ∀ piece rest, fits piece rest → weaker piece rest)
    (tiling : Tiling fits pieces text) : Tiling weaker pieces text := by
  induction tiling with
  | nil => exact nil
  | cons fit _ ih => exact cons (implies _ _ fit) ih

theorem flatMap_text (tiling : Tiling fits pieces text) :
    pieces.flatMap Segment.text = text := by
  induction tiling with
  | nil => rfl
  | cons _ _ ih => rw [List.flatMap_cons, ih]

end Tiling

namespace Segment

/-! ## Segments that may stand before a text -/

/-- Whether the text after a segment leaves it what it is: a lone slash has no
slash after it, a comment reaches to the end of its line, and an open string to
the end of the text. -/
def MayPrecede : Segment → List Char → Prop
  | lexeme (.symbol .slash), rest => rest.head? ≠ some '/'
  | comment _, rest => rest = [] ∨ rest.head? = some lineFeed
  | openString _, rest => rest = []
  | _, _ => True

/-- A well-formed segment and a text that may follow it. -/
structure Fits (piece : Segment) (rest : List Char) : Prop where
  wellFormed : piece.WellFormed
  mayPrecede : piece.MayPrecede rest

/-- Where a segment fits, no comment stands but that segment. -/
theorem Fits.append_ne_comment {piece : Segment} {after rest : List Char}
    (fits : piece.Fits after) (notComment : ∀ remark, piece ≠ .comment remark) :
    piece.text ++ after ≠ '/' :: '/' :: rest := by
  intro whole
  have isSlash : Lead.mark .slash = piece.lead :=
    lead_eq_of_append_eq_cons fits.wellFormed whole
  cases piece with
  | lexeme found =>
      cases found with
      | symbol mark =>
          cases mark <;> cases isSlash
          have followed : after = '/' :: rest := (List.cons.inj whole).2
          exact fits.mayPrecede (by rw [followed, List.head?_cons])
      | word letters => cases isSlash
      | number numeral => cases isSlash
      | string contents => cases isSlash
  | comment remark => exact notComment remark rfl
  | space character => cases isSlash
  | stray character => cases isSlash
  | openString contents => cases isSlash

theorem Longest.fits {piece : Segment} {rest : List Char}
    (longest : piece.Longest rest) : piece.Fits rest := by
  obtain ⟨wellFormed, ends⟩ := longest
  refine ⟨wellFormed, ?_⟩
  cases piece with
  | lexeme found =>
      unfold MayPrecede
      split
      next isSlash =>
        cases isSlash
        exact ends.2 rfl
      next isComment => cases isComment
      next isOpen => cases isOpen
      next => trivial
  | comment remark =>
      cases rest with
      | nil => exact Or.inl rfl
      | cons c others => exact Or.inr (congrArg some (ends c rfl))
  | openString contents => exact ends
  | space character => trivial
  | stray character => trivial

theorem endsBefore_nil (piece : Segment) : piece.EndsBefore [] := by
  cases piece with
  | lexeme found =>
      cases found with
      | symbol mark => exact ⟨by simp, by simp⟩
      | word letters => simp [EndsBefore, Lexeme.EndsBefore]
      | number numeral => exact ⟨by simp, by simp⟩
      | string contents => trivial
  | comment remark => simp [EndsBefore]
  | openString contents => rfl
  | space character => trivial
  | stray character => trivial

/-- A text is the text of at most one well-formed segment. -/
theorem eq_of_text_eq {piece other : Segment} (wellFormed : piece.WellFormed)
    (otherWellFormed : other.WellFormed) (same : other.text = piece.text) :
    other = piece := by
  obtain ⟨first, rest, textEq, _⟩ := exists_lead wellFormed
  have cutPiece : cut first rest = (piece, []) :=
    cut_eq_of_longest ⟨wellFormed, endsBefore_nil piece⟩ (by simp [textEq])
  have cutOther : cut first rest = (other, []) :=
    cut_eq_of_longest ⟨otherWellFormed, endsBefore_nil other⟩ (by simp [same, textEq])
  rw [cutPiece] at cutOther
  exact (Prod.mk.inj cutOther).1.symm

end Segment

/-! ## The tiling of a scan -/

theorem segments_tiling (text : List Char) :
    Tiling Segment.Longest (segments text) text := by
  induction text using segments_induction with
  | empty =>
      rw [segments_nil]
      exact .nil
  | step first rest ih =>
      have whole := Segment.text_cut_append first rest
      have tiling := Tiling.cons (Segment.cut_longest first rest) ih
      rw [whole] at tiling
      rw [segments_cons]
      exact tiling

theorem tiling_singleton {piece : Segment} (wellFormed : piece.WellFormed) :
    Tiling Segment.Longest [piece] piece.text := by
  have longest : piece.Longest [] := ⟨wellFormed, piece.endsBefore_nil⟩
  have tiling := Tiling.cons longest .nil
  rw [List.append_nil] at tiling
  exact tiling

/-- A text has one tiling by longest segments, that of its scan. -/
theorem Tiling.segments_eq {pieces : List Segment} {text : List Char}
    (tiling : Tiling Segment.Longest pieces text) : segments text = pieces := by
  induction tiling with
  | nil => exact segments_nil
  | @cons piece pieces rest longest _ ih =>
      obtain ⟨first, others, textEq, _⟩ := Segment.exists_lead longest.wellFormed
      have whole : piece.text ++ rest = first :: (others ++ rest) := by
        rw [textEq, List.cons_append]
      rw [whole, segments_cons, Segment.cut_eq_of_longest longest whole, ih]

theorem Segment.Longest.segments_append {piece : Segment} {rest : List Char}
    (longest : piece.Longest rest) : segments (piece.text ++ rest) = piece :: segments rest :=
  (Tiling.cons longest (segments_tiling rest)).segments_eq

end LoxScanner
