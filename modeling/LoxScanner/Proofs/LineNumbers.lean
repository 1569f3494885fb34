import LoxScanner.Proofs.Lexer
import Mathlib.Data.List.Basic

/-!
# Line numbers

In a text with at most `2 ^ 32 - 2` line feeds the 32-bit line count never wraps.
Every lexer that a scan goes through stands on the line that the line feeds before
its cursor give, and so do the tokens and diagnostics of the scan.
-/

namespace LoxScanner

/-! ## The count of lines -/

section Count

variable {text read left : List Char}

theorem toNat_lineAfter (bounded : text.count lineFeed ≤ UInt32.size - 2) :
    (lineAfter 1 text).toNat = 1 + text.count lineFeed := by
  have size : UInt32.size = 4294967296 := rfl
  simp only [lineAfter, UInt32.toNat_add, UInt32.toNat_one, UInt32.toNat_ofNat']
  omega

/-- The line after any first part of the text is counted without a wrap. -/
theorem toNat_lineAfter_of_append (bounded : text.count lineFeed ≤ UInt32.size - 2)
    (whole : text = read ++ left) :
    (lineAfter 1 read).toNat = 1 + read.count lineFeed := by
  apply toNat_lineAfter
  rw [whole, List.count_append] at bounded
  omega

/-- A line feed of the text adds one to the line, without a wrap. -/
theorem toNat_lineAfter_lineFeed (bounded : text.count lineFeed ≤ UInt32.size - 2)
    (whole : text = read ++ lineFeed :: left) :
    (lineAfter 1 (read ++ [lineFeed])).toNat = (lineAfter 1 read).toNat + 1 := by
  have wholeAfter : text = (read ++ [lineFeed]) ++ left := by simp [whole]
  rw [toNat_lineAfter_of_append bounded whole,
    toNat_lineAfter_of_append bounded wholeAfter, List.count_append,
    List.count_singleton_self]
  omega

end Count

namespace Placement

/-- One more than the number of line feeds before a segment. -/
def lineNumber (place : Placement) : Nat :=
  1 + place.before.count lineFeed

theorem toNat_line {text : List Char} {place : Placement}
    (bounded : text.count lineFeed ≤ UInt32.size - 2) (member : place ∈ placements text) :
    place.line.toNat = place.lineNumber :=
  toNat_lineAfter_of_append bounded (before_append_of_mem_placements member).symm

end Placement

/-! ## The lexers of a scan -/

namespace Lexer

/-- The lexers that a scan of a text goes through, segment by segment. -/
inductive Reachable (source : String) (file : Option String) : Lexer → Prop
  | initial : Reachable source file (ofSource source file)
  | step {lexer after : Lexer} :
      Reachable source file lexer → lexer.cursor.atEnd = false →
      lexer.scanSegment = .ok after → Reachable source file after

/-- Whether a lexer stands between two parts of a text, on the line that the first
of them gives. -/
def StandsIn (lexer : Lexer) (text : List Char) : Prop :=
  ∃ start taken left, lexer.cursor.Splits start taken left ∧
    text = (start ++ taken) ++ left ∧ lexer.line = lineAfter 1 (start ++ taken)

theorem standsIn_ofSource (source : String) (file : Option String) :
    (ofSource source file).StandsIn source.toList :=
  ⟨[], [], source.toList, Cursor.splits_ofSource source, rfl, (lineAfter_nil 1).symm⟩

theorem StandsIn.scanSegment {lexer after : Lexer} {text : List Char}
    (stands : lexer.StandsIn text) (going : lexer.cursor.atEnd = false)
    (scanned : lexer.scanSegment = .ok after) : after.StandsIn text := by
  obtain ⟨start, taken, left, splits, textEq, lineEq⟩ := stands
  cases left with
  | nil =>
      rw [splits.atEnd_eq] at going
      cases going
  | cons first rest =>
      obtain ⟨found, foundEq, scans, afterSplits⟩ := exists_scanSegment splits
      have same : found = after := by
        rw [foundEq] at scanned
        exact Except.ok.inj scanned
      subst same
      refine ⟨_, _, _, afterSplits, ?_, ?_⟩
      · rw [textEq, List.append_assoc _ _ (Segment.cut first rest).2,
          Segment.text_cut_append]
      · rw [scans.line_eq, lineEq, lineAfter_lineAfter]
        simp

theorem Reachable.standsIn {source : String} {file : Option String} {lexer : Lexer}
    (reachable : Reachable source file lexer) : lexer.StandsIn source.toList := by
  induction reachable with
  | initial => exact standsIn_ofSource source file
  | step _ going scanned ih => exact ih.scanSegment going scanned

end Lexer

/-! ## The lines of a scan -/

/-- Every token and diagnostic stands on the line that is one more than the number
of line feeds before its first character, the token of the end after all of them.
The lexer's count is that of the text before its cursor at every step, and no line
feed makes it wrap. -/
theorem tokenize_line_numbers (source : String) (file : Option String)
    (bounded : source.toList.count lineFeed ≤ UInt32.size - 2) :
    ((tokenize source file).tokens.map fun token =>
        (token.lexeme, token.line.toNat)) =
      ((placements source.toList).filterMap fun place =>
        place.piece.lexeme?.map fun found =>
          (String.ofList found.text, place.lineNumber)) ++
        [("", 1 + source.toList.count lineFeed)] ∧
    ((tokenize source file).diagnostics.map fun diagnostic =>
        (diagnostic.cause, diagnostic.position.line.toNat)) =
      ((placements source.toList).filterMap fun place =>
        place.piece.cause?.map fun cause => (cause, place.lineNumber)) ∧
    (∀ place ∈ placements source.toList,
      place.before ++ (place.piece.text ++ place.after) = source.toList) ∧
    (∀ lexer : Lexer, Lexer.Reachable source file lexer →
      ∃ read left : List Char, source.toList = read ++ left ∧
        lexer.cursor.current = byteCount read ∧
        lexer.line.toNat = 1 + read.count lineFeed) ∧
    ∀ read left : List Char, source.toList = read ++ lineFeed :: left →
      (lineAfter 1 (read ++ [lineFeed])).toNat = (lineAfter 1 read).toNat + 1 := by
  refine ⟨?_, ?_, ?_, ?_, ?_⟩
  · rw [tokens_tokenize, List.map_append, List.map_filterMap]
    congr 1
    · apply List.filterMap_congr
      intro place member
      rw [Placement.token?, Option.map_map, ← Placement.toNat_line bounded member]
      rfl
    · rw [List.map_singleton, ← toNat_lineAfter bounded]
      rfl
  · rw [diagnostics_tokenize, List.map_filterMap]
    apply List.filterMap_congr
    intro place member
    rw [Placement.diagnostic?, Option.map_map, ← Placement.toNat_line bounded member]
    rfl
  · intro place member
    exact before_append_of_mem_placements member
  · intro lexer reachable
    obtain ⟨start, taken, left, splits, textEq, lineEq⟩ := reachable.standsIn
    refine ⟨start ++ taken, left, textEq, splits.current_eq, ?_⟩
    rw [lineEq]
    exact toNat_lineAfter_of_append bounded textEq
  · intro read left whole
    exact toNat_lineAfter_lineFeed bounded whole

theorem line_numbers_across_strings :
    "a\r\n\"x\ny\" @ // z\n\"b\n".toList.count lineFeed ≤ UInt32.size - 2 ∧
    ((tokenize "a\r\n\"x\ny\" @ // z\n\"b\n" none).tokens.map fun token =>
      (token.lexeme, token.line.toNat)) =
        [("a", 1), ("\"x\ny\"", 2), ("", 5)] ∧
    ((tokenize "a\r\n\"x\ny\" @ // z\n\"b\n" none).diagnostics.map fun diagnostic =>
      (diagnostic.cause, diagnostic.position.line.toNat)) =
        [(.unexpectedCharacter '@', 3), (.unterminatedString "b\n", 4)] := by
  have bounded : "a\r\n\"x\ny\" @ // z\n\"b\n".toList.count lineFeed ≤ UInt32.size - 2 := by
    decide
  obtain ⟨tokens, diagnostics, -⟩ := tokenize_line_numbers _ none bounded
  refine ⟨bounded, ?_, ?_⟩
  · rw [tokens]
    decide +kernel
  · rw [diagnostics]
    decide +kernel

end LoxScanner
