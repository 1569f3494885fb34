import LoxScanner.Proofs.LineEndings
import LoxScanner.Proofs.RoundTrip
import Mathlib.Data.List.DropRight

/-!
# The line that a report shows

A scan counts the line feeds that it goes over, and a report cuts the whole text at its
line feeds. Both count alike, so the line with the number of a token or diagnostic is the
line in which its text starts. A line is shown without a carriage return at its end. Only
a string left open can end in that return, so nothing else that is shown is cut.
-/

namespace LoxScanner

/-! ## The line around a place -/

section Lines

variable {text line front run : List Char}

/-- The characters of a text after its last line feed. -/
def lineTail (text : List Char) : List Char :=
  text.rtakeWhile (· ≠ lineFeed)

theorem decide_ne_lineFeed (absent : lineFeed ∉ text) :
    ∀ c ∈ text, decide (c ≠ lineFeed) = true := by
  intro c member
  exact decide_eq_true (ne_of_mem_of_not_mem member absent)

theorem takeWhile_of_not_mem (absent : lineFeed ∉ text) :
    text.takeWhile (· ≠ lineFeed) = text :=
  List.takeWhile_eq_self_iff.2 (decide_ne_lineFeed absent)

theorem lineTail_of_not_mem (absent : lineFeed ∉ text) : lineTail text = text :=
  List.rtakeWhile_eq_self_iff.2 (decide_ne_lineFeed absent)

theorem lineTail_append_cons (line rest : List Char) :
    lineTail (line ++ lineFeed :: rest) = lineTail rest := by
  have stops : (lineFeed :: line.reverse).takeWhile (· ≠ lineFeed) = [] := by simp
  unfold lineTail List.rtakeWhile
  rw [List.reverse_append, List.reverse_cons, List.append_assoc, List.singleton_append,
    List.takeWhile_append, stops, List.append_nil]
  split
  next full => rw [(List.takeWhile_prefix _).eq_of_length full]
  next => rfl

theorem getElem?_zero_splitOn (text : List Char) :
    (text.splitOn lineFeed)[0]? = some (text.takeWhile (· ≠ lineFeed)) := by
  induction text using lines_induction lineFeed with
  | last line absent =>
      rw [List.splitOn_eq_singleton absent, takeWhile_of_not_mem absent]
      rfl
  | step line rest absent _ =>
      rw [List.splitOn_append_cons_self_of_not_mem absent,
        (takeWhile_dropWhile_ne absent (by simp [eq_comm])).1]
      rfl

/-- The piece of a text around a place: it reaches back to the last line feed before the
place and forward to the first one after it. -/
theorem getElem?_splitOn_count (before after : List Char) :
    ((before ++ after).splitOn lineFeed)[before.count lineFeed]? =
      some (lineTail before ++ after.takeWhile (· ≠ lineFeed)) := by
  induction before using lines_induction lineFeed with
  | last line absent =>
      rw [lineTail_of_not_mem absent, List.count_eq_zero_of_not_mem absent,
        getElem?_zero_splitOn, List.takeWhile_append_of_pos (decide_ne_lineFeed absent)]
  | step line rest absent ih =>
      rw [lineTail_append_cons, List.count_append, List.count_eq_zero_of_not_mem absent,
        List.count_cons_self, Nat.zero_add, List.append_assoc, List.cons_append,
        List.splitOn_append_cons_self_of_not_mem absent, List.getElem?_cons_succ, ih]

theorem length_splitOn (text : List Char) :
    (text.splitOn lineFeed).length = text.count lineFeed + 1 := by
  induction text using lines_induction lineFeed with
  | last line absent =>
      rw [List.splitOn_eq_singleton absent, List.count_eq_zero_of_not_mem absent]
      rfl
  | step line rest absent ih =>
      rw [List.splitOn_append_cons_self_of_not_mem absent, List.length_cons, ih,
        List.count_append, List.count_eq_zero_of_not_mem absent, List.count_cons_self,
        Nat.zero_add]

theorem line?_count (before after : List Char) :
    line? (before ++ after) (1 + before.count lineFeed) =
      some (dropReturn (lineTail before ++ after.takeWhile (· ≠ lineFeed))) := by
  rw [Nat.add_comm, line?, getElem?_splitOn_count]
  rfl

theorem line?_eq_none {number : Nat} (beyond : 1 + text.count lineFeed < number) :
    line? text number = none := by
  cases number with
  | zero => rfl
  | succ index =>
      have tooFew : (text.splitOn lineFeed).length ≤ index := by
        rw [length_splitOn]
        omega
      rw [line?, List.getElem?_eq_none tooFew]
      rfl

/-- Only the end of a line decides what is dropped from it. -/
theorem dropReturn_append (notEmpty : run ≠ []) (front : List Char) :
    dropReturn (front ++ run) = front ++ dropReturn run := by
  unfold dropReturn dropAtEnd
  rw [List.getLast?_append_of_ne_nil front notEmpty, List.dropLast_append_of_ne_nil notEmpty]
  split
  · rfl
  · rfl

/-- What follows a text that ends in no carriage return is dropped without touching it. -/
theorem prefix_dropReturn_append (other : text.getLast? ≠ some carriageReturn)
    (rest : List Char) : text <+: dropReturn (text ++ rest) := by
  by_cases isEmpty : rest = []
  · have same : dropReturn (text ++ rest) = text := by
      rw [isEmpty, List.append_nil]
      exact dropReturn_of_getLast? other
    exact ⟨[], by rw [List.append_nil, same]⟩
  · rw [dropReturn_append isEmpty]
    exact List.prefix_append text _

end Lines

/-! ## The text of a token or a diagnostic -/

theorem Lexeme.getLast?_text_ne {found : Lexeme} (wellFormed : found.WellFormed) :
    found.text.getLast? ≠ some carriageReturn := by
  intro isLast
  by_cases isString : ∃ contents, found = string contents
  · obtain ⟨contents, rfl⟩ := isString
    rw [text, List.getLast?_concat] at isLast
    cases isLast
  · have notString : ∀ contents, found ≠ string contents := not_exists.1 isString
    exact blank_not_mem_text wellFormed notString rfl (List.mem_of_getLast? isLast)

namespace Segment

variable {piece : Segment}

/-- A string left open of which the last character is a carriage return. -/
def EndsInReturn : Segment → Prop
  | openString contents => contents.getLast? = some carriageReturn
  | _ => False

theorem exists_first (wellFormed : piece.WellFormed) (loud : ¬ piece.IsSilent) :
    ∃ first others, piece.text = first :: others ∧ first.isWhitespace = false := by
  obtain ⟨first, others, textEq, lead⟩ := exists_lead wellFormed
  refine ⟨first, others, textEq, ?_⟩
  rw [← Bool.not_eq_true, ← Lead.of_eq_blank_iff, lead]
  cases piece with
  | lexeme found => cases found <;> simp [Segment.lead]
  | space character => exact absurd trivial loud
  | comment remark => exact absurd trivial loud
  | stray character => simp [Segment.lead]
  | openString contents => simp [Segment.lead]

theorem getLast?_text_ne (wellFormed : piece.WellFormed) (loud : ¬ piece.IsSilent)
    (kept : ¬ piece.EndsInReturn) : piece.text.getLast? ≠ some carriageReturn := by
  intro isLast
  have member : carriageReturn ∈ piece.text := List.mem_of_getLast? isLast
  cases piece with
  | lexeme found => exact found.getLast?_text_ne wellFormed isLast
  | space character => exact loud trivial
  | comment remark => exact loud trivial
  | stray character =>
      have isReturn : carriageReturn = character := List.mem_singleton.1 member
      obtain ⟨notBlank, -⟩ := wellFormed
      apply notBlank
      rw [← isReturn]
      decide
  | openString contents =>
      apply kept
      cases contents with
      | nil => cases isLast
      | cons c others =>
          rw [Segment.text, List.getLast?_cons_cons] at isLast
          exact isLast

end Segment

namespace Placement

variable {place : Placement} {text : List Char}

/-- The number of characters between the last line feed before a segment, or the start of
the text, and the segment. -/
def column (place : Placement) : Nat :=
  (lineTail place.before).length

/-- What the line in which a segment starts shows from there on. -/
def shown (place : Placement) : List Char :=
  dropReturn ((place.piece.text ++ place.after).takeWhile (· ≠ lineFeed))

theorem exists_shown (wellFormed : place.piece.WellFormed) (loud : ¬ place.piece.IsSilent) :
    ∃ c others rest, place.piece.text = c :: others ∧ place.shown = c :: rest := by
  obtain ⟨c, others, textEq, notBlank⟩ := Segment.exists_first wellFormed loud
  have notFeed : lineFeed ∉ [c] := by
    intro isFeed
    cases List.mem_singleton.1 isFeed
    cases notBlank
  have notReturn : [c].getLast? ≠ some carriageReturn := by
    intro isReturn
    cases isReturn
    cases notBlank
  obtain ⟨rest, shownEq⟩ :=
    prefix_dropReturn_append notReturn ((others ++ place.after).takeWhile (· ≠ lineFeed))
  refine ⟨c, others, rest, textEq, ?_⟩
  rw [shown, textEq, List.cons_append, ← List.singleton_append,
    List.takeWhile_append_of_pos (decide_ne_lineFeed notFeed)]
  exact shownEq.symm

theorem shown_of_oneLine (oneLine : lineFeed ∉ place.piece.text) :
    place.shown = dropReturn (place.piece.text ++ place.after.takeWhile (· ≠ lineFeed)) := by
  rw [shown, List.takeWhile_append_of_pos (decide_ne_lineFeed oneLine)]

theorem prefix_shown (wellFormed : place.piece.WellFormed) (loud : ¬ place.piece.IsSilent)
    (oneLine : lineFeed ∉ place.piece.text) (kept : ¬ place.piece.EndsInReturn) :
    place.piece.text <+: place.shown := by
  rw [shown_of_oneLine oneLine]
  exact prefix_dropReturn_append (Segment.getLast?_text_ne wellFormed loud kept) _

theorem shown_append_return (longest : place.piece.Longest place.after)
    (oneLine : lineFeed ∉ place.piece.text) (cut : place.piece.EndsInReturn) :
    place.shown ++ [carriageReturn] = place.piece.text := by
  rw [shown_of_oneLine oneLine]
  obtain ⟨before, piece, after⟩ := place
  cases piece with
  | openString contents =>
      have atEnd : after = [] := longest.ends
      obtain ⟨kept, contentsEq⟩ := List.getLast?_eq_some_iff.1 cut
      dsimp only
      rw [atEnd, List.takeWhile_nil, List.append_nil, Segment.text, contentsEq,
        ← List.cons_append, dropReturn_append_return]
  | lexeme found => cases cut
  | space character => cases cut
  | comment remark => cases cut
  | stray character => cases cut

/-- How a segment of a text shows in the line in which it starts. Its first character
stands at its column. So does all of it if there is no line feed in it, but for the
carriage return that may end a string left open. -/
structure ShownIn (place : Placement) (text row : List Char) : Prop where
  first : ∃ c, text[place.before.length]? = some c ∧ row[place.column]? = some c
  whole : lineFeed ∉ place.piece.text → ¬ place.piece.EndsInReturn →
    place.piece.text <+: row.drop place.column
  allButReturn : lineFeed ∉ place.piece.text → place.piece.EndsInReturn →
    row.drop place.column ++ [carriageReturn] = place.piece.text

/-- A segment that is not silent ends the part of its line before it. -/
theorem line?_lineNumber (member : place ∈ placements text) (loud : ¬ place.piece.IsSilent) :
    line? text place.lineNumber = some (lineTail place.before ++ place.shown) := by
  have wellFormed := (longest_of_mem_placements member).wellFormed
  obtain ⟨c, others, rest, -, shownEq⟩ := exists_shown wellFormed loud
  have notEmpty : (place.piece.text ++ place.after).takeWhile (· ≠ lineFeed) ≠ [] := by
    intro isEmpty
    rw [shown, isEmpty] at shownEq
    cases shownEq
  have found := line?_count place.before (place.piece.text ++ place.after)
  rw [before_append_of_mem_placements member, dropReturn_append notEmpty] at found
  exact found

theorem exists_line (member : place ∈ placements text) (loud : ¬ place.piece.IsSilent) :
    ∃ line, line? text place.lineNumber = some line ∧ place.ShownIn text line := by
  have whole := before_append_of_mem_placements member
  have longest := longest_of_mem_placements member
  obtain ⟨c, others, rest, textEq, shownEq⟩ := exists_shown longest.wellFormed loud
  have fromColumn : (lineTail place.before ++ place.shown).drop place.column = place.shown :=
    List.drop_left
  refine ⟨_, line?_lineNumber member loud, ⟨c, ?_, ?_⟩, ?_, ?_⟩
  · rw [← whole, textEq]
    simp
  · rw [column, shownEq]
    simp
  · intro oneLine kept
    rw [fromColumn]
    exact prefix_shown longest.wellFormed loud oneLine kept
  · intro oneLine cut
    rw [fromColumn]
    exact shown_append_return longest oneLine cut

end Placement

/-! ## The lines of a scan -/

theorem line?_lineAfter {text : List Char} (bounded : text.count lineFeed ≤ UInt32.size - 2) :
    line? text (lineAfter 1 text).toNat = some (dropReturn (lineTail text)) := by
  have found := line?_count text []
  rw [List.append_nil, List.takeWhile_nil, List.append_nil] at found
  rw [toNat_lineAfter bounded, found]

/-- The line with the number of a token or a diagnostic is there, and what was read shows
in it from its column on, whole if it has no line feed in it. Only a string left open
loses the carriage return that may end it. The line of the end is the last one there is,
and every report of the scan shows a line. -/
theorem tokenize_lines_shown (source : String) (file : Option String)
    (bounded : source.toList.count lineFeed ≤ UInt32.size - 2) :
    (tokenize source file).tokens =
      (placements source.toList).filterMap Placement.token? ++
        [.endOfText (lineAfter 1 source.toList)] ∧
    (tokenize source file).diagnostics =
      (placements source.toList).filterMap
        (Placement.diagnostic? (file.getD defaultLabel)) ∧
    (∀ place ∈ placements source.toList,
      place.before ++ (place.piece.text ++ place.after) = source.toList) ∧
    (∀ place ∈ placements source.toList, ∀ token : Token,
      place.token? = some token →
        token.lexeme.toList = place.piece.text ∧
        ∃ line, line? source.toList token.line.toNat = some line ∧
          place.ShownIn source.toList line) ∧
    (∀ place ∈ placements source.toList, ∀ diagnostic : Diagnostic,
      place.diagnostic? (file.getD defaultLabel) = some diagnostic →
        ∃ line, line? source.toList diagnostic.position.line.toNat = some line ∧
          place.ShownIn source.toList line ∧
          Report.rows diagnostic source =
            Report.framed diagnostic.cause diagnostic.position.line.toNat
              diagnostic.position.file (String.ofList (trim line))) ∧
    line? source.toList (lineAfter 1 source.toList).toNat =
      some (dropReturn (lineTail source.toList)) ∧
    ∀ number, (lineAfter 1 source.toList).toNat < number →
      line? source.toList number = none := by
  refine ⟨tokens_tokenize source file, diagnostics_tokenize source file, ?_, ?_, ?_,
    line?_lineAfter bounded, ?_⟩
  · intro place member
    exact before_append_of_mem_placements member
  · intro place member token isToken
    obtain ⟨found, isLexeme, rfl⟩ := place.exists_lexeme_of_token? isToken
    have loud : ¬ place.piece.IsSilent := by
      rw [isLexeme]
      exact id
    obtain ⟨line, lineFound, shownIn⟩ := place.exists_line member loud
    rw [← Placement.toNat_line bounded member] at lineFound
    refine ⟨?_, line, lineFound, shownIn⟩
    rw [isLexeme]
    exact String.toList_ofList
  · intro place member diagnostic isDiagnostic
    obtain ⟨cause, isCause, rfl⟩ := Option.map_eq_some_iff.1 isDiagnostic
    have loud : ¬ place.piece.IsSilent := Segment.not_isSilent_of_cause? isCause
    obtain ⟨line, lineFound, shownIn⟩ := place.exists_line member loud
    rw [← Placement.toNat_line bounded member] at lineFound
    exact ⟨line, lineFound, shownIn, Report.rows_of_line? lineFound⟩
  · intro number beyond
    rw [toNat_lineAfter bounded] at beyond
    exact line?_eq_none beyond

/-- A text of one open string, whose line is shown without the string's last character. -/
theorem return_lost_from_open_string :
    "\"a\r".toList.count lineFeed ≤ UInt32.size - 2 ∧
    (tokenize "\"a\r" none).diagnostics =
      [⟨.unterminatedString "a\r", ⟨1, defaultLabel⟩⟩] ∧
    ¬ ∀ place ∈ placements "\"a\r".toList, ∀ diagnostic : Diagnostic,
      place.diagnostic? defaultLabel = some diagnostic → lineFeed ∉ place.piece.text →
        ∃ line, line? "\"a\r".toList diagnostic.position.line.toNat = some line ∧
          place.piece.text <+: line.drop place.column := by
  refine ⟨by decide, by decide +kernel, ?_⟩
  intro shown
  have pieces : segments "\"a\r".toList = [.openString ['a', '\r']] := by decide +kernel
  have member : ⟨[], .openString ['a', '\r'], []⟩ ∈ placements "\"a\r".toList := by
    rw [placements, pieces]
    exact List.mem_singleton_self _
  obtain ⟨line, lineFound, isPrefix⟩ := shown _ member _ rfl (by decide)
  have lineEq : line? "\"a\r".toList 1 = some ['"', 'a'] := by decide +kernel
  have same : ['"', 'a'] = line := Option.some.inj (lineEq.symm.trans lineFound)
  subst same
  exact absurd isPrefix.length_le (by decide)

theorem lines_shown_with_mixed_endings :
    let source := "x\r\n\"p\nq\"@ \"a\r"
    let opened : Placement :=
      ⟨['x', '\r', '\n', '"', 'p', '\n', 'q', '"', '@', ' '], .openString ['a', '\r'], []⟩
    source.toList.count lineFeed ≤ UInt32.size - 2 ∧
    (tokenize source none).diagnostics =
      [⟨.unexpectedCharacter '@', ⟨3, defaultLabel⟩⟩,
        ⟨.unterminatedString "a\r", ⟨3, defaultLabel⟩⟩] ∧
    opened ∈ placements source.toList ∧
    line? source.toList 3 = some ['q', '"', '@', ' ', '"', 'a'] ∧
    opened.ShownIn source.toList ['q', '"', '@', ' ', '"', 'a'] ∧
    line? source.toList 4 = none := by
  intro source opened
  have bounded : source.toList.count lineFeed ≤ UInt32.size - 2 := by decide
  have pieces : segments source.toList =
      [.lexeme (.word ['x']), .space '\r', .space '\n',
        .lexeme (.string ['p', '\n', 'q']), .stray '@', .space ' ',
        .openString ['a', '\r']] := by
    decide +kernel
  have member : opened ∈ placements source.toList := by
    rw [placements, pieces]
    simp [placementsFrom, opened, Segment.text, Lexeme.text, quote]
  have lineEq : line? source.toList 3 = some ['q', '"', '@', ' ', '"', 'a'] := by
    decide +kernel
  obtain ⟨-, diagnostics, -, -, shown, -, beyond⟩ := tokenize_lines_shown source none bounded
  obtain ⟨line, lineFound, shownIn, -⟩ := shown opened member _ rfl
  have same : ['q', '"', '@', ' ', '"', 'a'] = line :=
    Option.some.inj (lineEq.symm.trans lineFound)
  rw [← same] at shownIn
  refine ⟨bounded, ?_, member, lineEq, shownIn, beyond 4 (by decide)⟩
  rw [diagnostics, placements, pieces]
  rfl

end LoxScanner
