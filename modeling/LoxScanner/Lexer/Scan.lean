import LoxScanner.Lexer.Basic

/-!
Scanning all that is left of a lexer's text, segment by segment. The scan ends because
a segment takes at least one byte of the text (`Lexer.left_lt_of_scanSegment`).
-/

namespace LoxScanner

namespace Lexer

/-! ## Moving forward -/

private theorem cursor_of_pushLexeme {lexer after : Lexer} {cursor : Cursor}
    {token : String → Token} (pushed : lexer.pushLexeme cursor token = .ok after) :
    after.cursor = cursor := by
  obtain ⟨text, _, rest⟩ := Cursor.exists_of_bind_eq_ok pushed
  cases rest
  rfl

private theorem leads_of_scanString {lexer after : Lexer}
    (scanned : lexer.scanString = .ok after) :
    lexer.cursor.Leads after.cursor := by
  obtain ⟨body, skipped, rest⟩ := Cursor.exists_of_bind_eq_ok scanned
  have toBody := Cursor.leads_of_skipWhile skipped
  split at rest
  · obtain ⟨contents, _, rest⟩ := Cursor.exists_of_bind_eq_ok rest
    cases rest
    exact toBody
  · obtain ⟨⟨_, closed⟩, taken, rest⟩ := Cursor.exists_of_bind_eq_ok rest
    obtain ⟨contents, _, rest⟩ := Cursor.exists_of_bind_eq_ok rest
    rw [cursor_of_pushLexeme rest]
    exact toBody.trans (Cursor.leads_of_next taken).1

private theorem leads_of_skipFraction {cursor after : Cursor}
    (skipped : skipFraction cursor = .ok after) : cursor.Leads after := by
  obtain ⟨point, _, rest⟩ := Cursor.exists_of_bind_eq_ok skipped
  obtain ⟨digit, _, rest⟩ := Cursor.exists_of_bind_eq_ok rest
  split at rest
  · obtain ⟨⟨_, fraction⟩, taken, rest⟩ := Cursor.exists_of_bind_eq_ok rest
    exact (Cursor.leads_of_next taken).1.trans (Cursor.leads_of_skipWhile rest)
  · cases rest
    exact .refl cursor

private theorem leads_of_scanNumber {lexer after : Lexer}
    (scanned : lexer.scanNumber = .ok after) :
    lexer.cursor.Leads after.cursor := by
  obtain ⟨whole, skipped, rest⟩ := Cursor.exists_of_bind_eq_ok scanned
  obtain ⟨cursor, fraction, rest⟩ := Cursor.exists_of_bind_eq_ok rest
  rw [cursor_of_pushLexeme rest]
  exact (Cursor.leads_of_skipWhile skipped).trans (leads_of_skipFraction fraction)

private theorem leads_of_scanWord {lexer after : Lexer}
    (scanned : lexer.scanWord = .ok after) :
    lexer.cursor.Leads after.cursor := by
  obtain ⟨cursor, skipped, rest⟩ := Cursor.exists_of_bind_eq_ok scanned
  rw [cursor_of_pushLexeme rest]
  exact Cursor.leads_of_skipWhile skipped

private theorem leads_of_scanMark {lexer after : Lexer} {mark : Symbol}
    (scanned : lexer.scanMark mark = .ok after) :
    lexer.cursor.Leads after.cursor := by
  unfold scanMark at scanned
  split at scanned
  · rw [cursor_of_pushLexeme scanned]
    exact .refl lexer.cursor
  · obtain ⟨⟨_, cursor⟩, tried, rest⟩ := Cursor.exists_of_bind_eq_ok scanned
    rw [cursor_of_pushLexeme rest]
    exact Cursor.leads_of_matchChar tried

private theorem leads_of_scanSlash {lexer after : Lexer}
    (scanned : lexer.scanSlash = .ok after) :
    lexer.cursor.Leads after.cursor := by
  obtain ⟨⟨found, cursor⟩, tried, rest⟩ := Cursor.exists_of_bind_eq_ok scanned
  have toCursor := Cursor.leads_of_matchChar tried
  dsimp only at rest
  split at rest
  · obtain ⟨remark, skipped, rest⟩ := Cursor.exists_of_bind_eq_ok rest
    cases rest
    exact toCursor.trans (Cursor.leads_of_skipWhile skipped)
  · rw [cursor_of_pushLexeme rest]
    exact toCursor

private theorem leads_of_scanAfter {lexer after : Lexer} {first : Char}
    (scanned : lexer.scanAfter first = .ok after) :
    lexer.cursor.Leads after.cursor := by
  unfold scanAfter at scanned
  split at scanned
  · cases scanned
    exact .refl lexer.cursor
  split at scanned
  · exact leads_of_scanString scanned
  split at scanned
  · exact leads_of_scanNumber scanned
  split at scanned
  · exact leads_of_scanWord scanned
  split at scanned
  · exact leads_of_scanSlash scanned
  · exact leads_of_scanMark scanned
  · cases scanned
    exact .refl lexer.cursor

/-- A segment takes at least one byte, and the text stays the same. -/
theorem left_lt_of_scanSegment {lexer after : Lexer}
    (scanned : lexer.scanSegment = .ok after) :
    after.cursor.left < lexer.cursor.left := by
  obtain ⟨⟨first, cursor⟩, taken, rest⟩ := Cursor.exists_of_bind_eq_ok scanned
  obtain ⟨toFirst, moved, going⟩ := Cursor.leads_of_next taken
  have onward := leads_of_scanAfter rest
  have beyond : cursor.current ≤ after.cursor.current := onward.current_le
  have sameSource := (toFirst.trans onward).source_eq
  simp only [Cursor.mark] at sameSource moved going
  simp only [Cursor.left, sameSource]
  omega

/-! ## The whole text -/

/-- The lexer at the end of its text. -/
def scanAll (lexer : Lexer) : Except Fault Lexer :=
  if lexer.cursor.atEnd then .ok lexer
  else
    match _scanned : lexer.scanSegment with
    | .ok after => after.scanAll
    | .error fault => .error fault
termination_by lexer.cursor.left
decreasing_by exact left_lt_of_scanSegment _scanned

/-- What a lexer has found, closed by the token of the text's end. -/
def found (lexer : Lexer) : Scan :=
  ⟨(lexer.tokens.push (.endOfText lexer.line)).toList, lexer.diagnostics.toList⟩

/-- Scans the rest of the text. -/
def scanTokens (lexer : Lexer) : Except Fault Scan := do
  let last ← lexer.scanAll
  return last.found

end Lexer

end LoxScanner
