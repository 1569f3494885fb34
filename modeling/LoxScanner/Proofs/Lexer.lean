import LoxScanner.Lexer.Scan
import LoxScanner.Proofs.Cursor
import LoxScanner.Proofs.Placement

/-!
# The lexer finds the segments of its text

Scanning one segment over byte offsets never faults, takes the segment that a cut
of the text to come takes, and adds that segment's event. By induction on the text
to come, a scan of all that is left adds the events of its segments.
-/

namespace LoxScanner

/-! ## Lines of segments without a line feed -/

theorem lineAfter_of_not_mem {line : UInt32} {text : List Char}
    (none : lineFeed ∉ text) : lineAfter line text = line := by
  simp [lineAfter, List.count_eq_zero_of_not_mem none]

namespace Lexer

/-! ## What scanning segments adds to a lexer -/

/-- `lexer.Scans pieces after` means that `after` has the line, tokens, diagnostics
and log that `lexer` has after the segments `pieces`. -/
structure Scans (lexer : Lexer) (pieces : List Segment) (after : Lexer) : Prop where
  line_eq : after.line = lineAfter lexer.line (pieces.flatMap Segment.text)
  label_eq : after.label = lexer.label
  tokens_eq : after.tokens.toList =
    lexer.tokens.toList ++
      (eventsFrom lexer.label lexer.line pieces).filterMap Event.token?
  diagnostics_eq : after.diagnostics.toList =
    lexer.diagnostics.toList ++
      (eventsFrom lexer.label lexer.line pieces).filterMap Event.diagnostic?
  log_eq : after.log.toList =
    lexer.log.toList ++ eventsFrom lexer.label lexer.line pieces

theorem Scans.nil (lexer : Lexer) : lexer.Scans [] lexer where
  line_eq := (lineAfter_nil lexer.line).symm
  label_eq := rfl
  tokens_eq := by simp
  diagnostics_eq := by simp
  log_eq := by simp

theorem Scans.append {lexer middle last : Lexer} {pieces more : List Segment}
    (first : lexer.Scans pieces middle) (others : middle.Scans more last) :
    lexer.Scans (pieces ++ more) last where
  line_eq := by
    rw [others.line_eq, first.line_eq, lineAfter_lineAfter, List.flatMap_append]
  label_eq := others.label_eq.trans first.label_eq
  tokens_eq := by
    rw [others.tokens_eq, first.tokens_eq, first.label_eq, first.line_eq,
      eventsFrom_append, List.filterMap_append, List.append_assoc]
  diagnostics_eq := by
    rw [others.diagnostics_eq, first.diagnostics_eq, first.label_eq, first.line_eq,
      eventsFrom_append, List.filterMap_append, List.append_assoc]
  log_eq := by
    rw [others.log_eq, first.log_eq, first.label_eq, first.line_eq, eventsFrom_append,
      List.append_assoc]

/-- Where the cursor stands makes no difference to what a scan adds. -/
theorem Scans.of_cursor {lexer after : Lexer} {cursor : Cursor}
    {pieces : List Segment} (scans : { lexer with cursor }.Scans pieces after) :
    lexer.Scans pieces after :=
  ⟨scans.line_eq, scans.label_eq, scans.tokens_eq, scans.diagnostics_eq, scans.log_eq⟩

theorem scans_push (lexer : Lexer) (found : Lexeme) (cursor : Cursor) :
    lexer.Scans [.lexeme found]
      ({ lexer with cursor, line := lineAfter lexer.line found.text }.push
        (found.token lexer.line)) := by
  constructor <;>
    simp [push, eventsFrom_cons, Segment.event?, Segment.text, Event.token?,
      Event.diagnostic?]

theorem scans_report {lexer : Lexer} {piece : Segment} {cause : Cause}
    (isCause : piece.cause? = some cause) (cursor : Cursor) :
    lexer.Scans [piece]
      ({ lexer with cursor, line := lineAfter lexer.line piece.text }.report
        cause lexer.line) := by
  have event : piece.event? lexer.label lexer.line =
      some (.diagnostic ⟨cause, ⟨lexer.line, lexer.label⟩⟩) := by
    cases piece <;> cases isCause <;> rfl
  constructor <;> simp [report, eventsFrom_cons, event, Event.token?, Event.diagnostic?]

theorem scans_silent {lexer : Lexer} {piece : Segment}
    (silent : piece.event? lexer.label lexer.line = none) (cursor : Cursor) :
    lexer.Scans [piece]
      { lexer with cursor, line := lineAfter lexer.line piece.text } := by
  constructor <;> simp [eventsFrom_cons, silent]

/-- `lexer.Reads start found after` means that `after` is `lexer` moved over the
first segment of `found`, which stands after `start`. -/
structure Reads (lexer : Lexer) (start : List Char) (found : Segment × List Char)
    (after : Lexer) : Prop where
  scans : lexer.Scans [found.1] after
  splits : after.cursor.Splits start found.1.text found.2

/-! ## Lexemes -/

section Scanners

variable {lexer : Lexer} {cursor : Cursor} {start taken left rest : List Char}
  {first : Char}

theorem pushLexeme_eq (splits : cursor.Splits start taken left)
    (token : String → Token) :
    lexer.pushLexeme cursor token =
      .ok ({ lexer with cursor }.push (token (String.ofList taken))) := by
  rw [pushLexeme, splits.lexeme_eq]
  rfl

/-- A lexeme without a line feed, pushed by a sub-scanner that leaves the line. -/
theorem exists_pushLexeme (found : Lexeme) {token : String → Token}
    (splits : cursor.Splits start found.text left)
    (tokenEq : token (String.ofList found.text) = found.token lexer.line)
    (oneLine : lineFeed ∉ found.text) :
    ∃ after, lexer.pushLexeme cursor token = .ok after ∧
      lexer.Reads start (.lexeme found, left) after := by
  refine ⟨_, pushLexeme_eq splits token, ?_, splits⟩
  have scans := scans_push lexer found cursor
  rw [lineAfter_of_not_mem oneLine, ← tokenEq] at scans
  exact scans

theorem exists_scanWord (starts : isWordStart first = true)
    (splits : lexer.cursor.Splits start [first] rest) :
    ∃ after, lexer.scanWord = .ok after ∧
      lexer.Reads start
        (.lexeme (.word (first :: rest.takeWhile isWordChar)),
          rest.dropWhile isWordChar) after := by
  obtain ⟨cursor, skipped, cursorSplits⟩ := splits.exists_skipWhile isWordChar
  have wellFormed : (Lexeme.word (first :: rest.takeWhile isWordChar)).WellFormed :=
    ⟨first, _, rfl, starts, fun c member => List.mem_takeWhile_imp member⟩
  have inWord := Lexeme.isWordChar_of_mem wellFormed
  rw [scanWord, skipped]
  refine exists_pushLexeme (.word (first :: rest.takeWhile isWordChar)) cursorSplits
    ?_ (not_mem_of_forall rfl inWord)
  simp [wordToken, Lexeme.token, Lexeme.kind, Lexeme.literal?, Lexeme.text]

/-! ## Numbers -/

theorem skipFraction_of_point {digit : Char} {more : List Char}
    (splits : cursor.Splits start taken ('.' :: digit :: more))
    (isDigit : digit.isDigit = true) :
    skipFraction cursor = (cursor.moveBy '.').skipWhile Char.isDigit := by
  have point : cursor.peek = .ok '.' := splits.peek_eq
  have second : cursor.peekNext = .ok digit := splits.peekNext_eq
  rw [skipFraction, point, second]
  simp only [bind, Except.bind, isDigit, and_self, if_true, splits.next_eq]

theorem exists_skipFraction_of_point {digit : Char} {more : List Char}
    (splits : cursor.Splits start taken ('.' :: digit :: more))
    (isDigit : digit.isDigit = true) :
    ∃ later, skipFraction cursor = .ok later ∧
      later.Splits start (taken ++ '.' :: (digit :: more).takeWhile Char.isDigit)
        ((digit :: more).dropWhile Char.isDigit) := by
  obtain ⟨later, skipped, laterSplits⟩ :=
    splits.moveBy.exists_skipWhile Char.isDigit
  refine ⟨later, ?_, ?_⟩
  · rw [skipFraction_of_point splits isDigit, skipped]
  · simpa using laterSplits

/-- What is read where a character is missing is neither a point nor a digit. -/
theorem not_point_of_no_point
    (noPoint : ∀ digit more, left = '.' :: digit :: more → digit.isDigit = false) :
    ¬ (left.head?.getD noCharacter = '.' ∧
      (left[1]?.getD noCharacter).isDigit = true) := by
  match left with
  | [] => decide
  | [_] => simp [noCharacter]
  | c :: digit :: more =>
      rintro ⟨rfl, isDigit⟩
      have notDigit := noPoint digit more rfl
      simp [notDigit] at isDigit

theorem skipFraction_of_no_point (splits : cursor.Splits start taken left)
    (noPoint : ∀ digit more, left = '.' :: digit :: more → digit.isDigit = false) :
    skipFraction cursor = .ok cursor := by
  rw [skipFraction, splits.peek_eq, splits.peekNext_eq]
  simp only [bind, Except.bind, if_neg (not_point_of_no_point noPoint)]
  rfl

theorem exists_skipNumeral (isDigit : first.isDigit = true)
    (splits : cursor.Splits start [first] rest) :
    ∃ later, (cursor.skipWhile Char.isDigit >>= skipFraction) = .ok later ∧
      later.Splits start (Numeral.split (first :: rest)).1.text
        (Numeral.split (first :: rest)).2 := by
  obtain ⟨whole, skipped, wholeSplits⟩ := splits.exists_skipWhile Char.isDigit
  have wholeEq : (first :: rest).takeWhile Char.isDigit =
      first :: rest.takeWhile Char.isDigit := by simp [isDigit]
  have restEq : (first :: rest).dropWhile Char.isDigit =
      rest.dropWhile Char.isDigit := by simp [isDigit]
  rw [skipped]
  by_cases point : ∃ digit more,
      rest.dropWhile Char.isDigit = '.' :: digit :: more ∧ digit.isDigit = true
  · obtain ⟨digit, more, leftEq, fractionDigit⟩ := point
    rw [leftEq] at wholeSplits restEq
    rw [Numeral.split_of_point wholeEq restEq fractionDigit]
    obtain ⟨later, fraction, laterSplits⟩ :=
      exists_skipFraction_of_point wholeSplits fractionDigit
    refine ⟨later, fraction, ?_⟩
    simpa [Numeral.text, fractionDigit] using laterSplits
  · have noPoint : ∀ digit more, rest.dropWhile Char.isDigit = '.' :: digit :: more →
        digit.isDigit = false := by
      intro digit more leftEq
      rw [← Bool.not_eq_true]
      exact fun fractionDigit => point ⟨digit, more, leftEq, fractionDigit⟩
    rw [Numeral.split_of_no_point wholeEq restEq noPoint]
    exact ⟨whole, skipFraction_of_no_point wholeSplits noPoint, wholeSplits⟩

theorem numeralValue_text {numeral : Numeral} (wellFormed : numeral.WellFormed) :
    numeralValue (String.ofList numeral.text) = numeral.value := by
  rw [numeralValue, String.toList_ofList, Numeral.ofText?_text wellFormed]
  rfl

theorem exists_scanNumber (isDigit : first.isDigit = true)
    (splits : lexer.cursor.Splits start [first] rest) :
    ∃ after, lexer.scanNumber = .ok after ∧
      lexer.Reads start
        (.lexeme (.number (Numeral.split (first :: rest)).1),
          (Numeral.split (first :: rest)).2) after := by
  obtain ⟨wellFormed, _⟩ := Numeral.split_longest isDigit rest
  obtain ⟨later, skipped, laterSplits⟩ := exists_skipNumeral isDigit splits
  obtain ⟨whole, wholeEq, laterEq⟩ := Cursor.exists_of_bind_eq_ok skipped
  rw [scanNumber, wholeEq]
  simp only [bind, Except.bind, laterEq]
  refine exists_pushLexeme (.number (Numeral.split (first :: rest)).1) laterSplits
    ?_ (wellFormed.blank_not_mem_text rfl)
  simp [numberToken, Lexeme.token, Lexeme.kind, Lexeme.literal?, Lexeme.text,
    numeralValue_text wellFormed]

/-! ## Symbols and comments -/

theorem exists_pushSymbol (mark : Symbol)
    (splits : cursor.Splits start mark.spelling left) :
    ∃ after, lexer.pushLexeme cursor (lexer.symbolToken mark) = .ok after ∧
      lexer.Reads start (.lexeme (.symbol mark), left) after := by
  refine exists_pushLexeme (.symbol mark) splits rfl ?_
  cases mark <;> decide

theorem exists_scanMark {mark : Symbol} (spelling : mark.spelling = [first])
    (splits : lexer.cursor.Splits start [first] rest) :
    ∃ after, lexer.scanMark mark = .ok after ∧
      lexer.Reads start
        (.lexeme (.symbol (Lexeme.splitSymbol mark rest).1),
          (Lexeme.splitSymbol mark rest).2) after := by
  have markSplits : lexer.cursor.Splits start mark.spelling rest := by
    rw [spelling]
    exact splits
  unfold scanMark
  cases extended : mark.withEqual? with
  | none =>
      rw [Lexeme.splitSymbol_of_head? (by simp [extended])]
      exact exists_pushSymbol mark markSplits
  | some longer =>
      dsimp only
      rw [splits.matchChar_eq]
      by_cases equal : rest.head? = some '='
      · obtain ⟨others, rfl⟩ := List.head?_eq_some_iff.1 equal
        have longerSplits :
            (lexer.cursor.moveBy '=').Splits start longer.spelling others := by
          rw [Symbol.spelling_of_withEqual? extended, spelling]
          exact splits.moveBy
        rw [Lexeme.splitSymbol_of_withEqual? extended, if_pos equal]
        exact exists_pushSymbol longer longerSplits
      · rw [Lexeme.splitSymbol_of_head? fun _ => equal, if_neg equal]
        exact exists_pushSymbol mark markSplits

theorem exists_scanSlash (splits : lexer.cursor.Splits start ['/'] rest) :
    ∃ after, lexer.scanSlash = .ok after ∧
      lexer.Reads start (Segment.cutSymbol .slash rest) after := by
  rw [scanSlash, splits.matchChar_eq]
  by_cases double : rest.head? = some '/'
  · obtain ⟨others, rfl⟩ := List.head?_eq_some_iff.1 double
    obtain ⟨remark, skipped, remarkSplits⟩ :=
      splits.moveBy.exists_skipWhile (· ≠ lineFeed)
    have oneLine : lineFeed ∉ '/' :: '/' :: others.takeWhile (· ≠ lineFeed) := by
      have notSlash : lineFeed ≠ '/' := by decide
      simpa [notSlash] using not_mem_takeWhile_ne lineFeed others
    have scans : lexer.Scans [.comment (others.takeWhile (· ≠ lineFeed))] _ :=
      scans_silent rfl remark
    rw [Segment.text, lineAfter_of_not_mem oneLine] at scans
    rw [if_pos double]
    simp only [bind, Except.bind, if_true, skipped]
    exact ⟨_, rfl, scans, remarkSplits⟩
  · have noEqual : Symbol.slash.withEqual?.isSome = true → rest.head? ≠ some '=' := by
      simp [Symbol.withEqual?]
    rw [Segment.cutSymbol_of_head? fun _ => double,
      Lexeme.splitSymbol_of_head? noEqual, if_neg double]
    exact exists_pushSymbol .slash splits

/-! ## Strings -/

theorem slice_contents {contents : List Char}
    (splits : cursor.Splits start (quote :: contents) left) :
    slice cursor.source (cursor.start + 1) cursor.current =
      .ok (String.ofList contents) := by
  have lower : cursor.start + 1 = byteCount (start ++ [quote]) := by
    rw [splits.start_eq, byteCount_append]
    rfl
  have upper : cursor.current = byteCount ((start ++ [quote]) ++ contents) := by
    rw [splits.current_eq]
    simp
  have whole : cursor.source.toList = (start ++ [quote]) ++ (contents ++ left) := by
    simp [splits.source_eq]
  rw [lower, upper, slice_eq_ok whole]

/-- The closing quote is one byte, so leaving it out of the slice undoes moving over
it. -/
theorem slice_contents_of_closed {contents others : List Char}
    (splits : cursor.Splits start (quote :: contents) (quote :: others)) :
    slice (cursor.moveBy quote).source ((cursor.moveBy quote).start + 1)
      ((cursor.moveBy quote).current - 1) = .ok (String.ofList contents) :=
  slice_contents splits

theorem lineAfter_quote_cons (line : UInt32) (contents : List Char) :
    lineAfter line (quote :: contents) = lineAfter line contents := by
  simp [lineAfter, quote, lineFeed]

theorem lineAfter_string (line : UInt32) (contents : List Char) :
    lineAfter line (Lexeme.string contents).text = lineAfter line contents := by
  simp [lineAfter, Lexeme.text, quote, lineFeed]

theorem exists_scanString (splits : lexer.cursor.Splits start [quote] rest) :
    ∃ after, lexer.scanString = .ok after ∧
      lexer.Reads start (Segment.cutString rest) after := by
  obtain ⟨body, skipped, bodySplits⟩ := splits.exists_skipWhile (· ≠ quote)
  have contents := slice_contents bodySplits
  rw [scanString, skipped]
  simp only [bind, Except.bind, bodySplits.atEnd_eq]
  unfold Segment.cutString
  dsimp only
  cases leftEq : rest.dropWhile (· ≠ quote) with
  | nil =>
      rw [leftEq] at bodySplits
      simp only [List.isEmpty_nil, if_true, contents]
      refine ⟨_, rfl, ?_, bodySplits⟩
      have scans : lexer.Scans [.openString (rest.takeWhile (· ≠ quote))] _ :=
        scans_report rfl body
      rw [Segment.text, lineAfter_quote_cons] at scans
      simpa using scans
  | cons closing others =>
      have closes : closing = quote :=
        eq_of_head?_dropWhile_ne (congrArg List.head? leftEq)
      subst closes
      rw [leftEq] at bodySplits
      rw [bodySplits.next_eq]
      simp only [List.isEmpty_cons, Bool.false_eq_true, if_false,
        slice_contents_of_closed bodySplits]
      rw [pushLexeme_eq bodySplits.moveBy]
      refine ⟨_, rfl, ?_, bodySplits.moveBy⟩
      have scans := scans_push lexer (.string (rest.takeWhile (· ≠ quote)))
        (body.moveBy quote)
      rw [lineAfter_string] at scans
      rw [String.toList_ofList]
      exact scans

/-! ## One segment -/

/-- A sub-scanner is chosen by the class of the first character alone. -/
theorem scanAfter_eq (lexer : Lexer) (first : Char) :
    lexer.scanAfter first =
      match Lead.of first with
      | .blank => .ok { lexer with line := lineAfter lexer.line [first] }
      | .quotation => lexer.scanString
      | .digit => lexer.scanNumber
      | .letter => lexer.scanWord
      | .mark .slash => lexer.scanSlash
      | .mark symbol => lexer.scanMark symbol
      | .nothing => .ok (lexer.report (.unexpectedCharacter first) lexer.line) := by
  unfold scanAfter Lead.of
  grind

theorem exists_scanAfter (splits : lexer.cursor.Splits start [first] rest) :
    ∃ after, lexer.scanAfter first = .ok after ∧
      lexer.Reads start (Segment.cut first rest) after := by
  rw [scanAfter_eq, Segment.cut_eq]
  cases lead : Lead.of first with
  | blank => exact ⟨_, rfl, scans_silent rfl lexer.cursor, splits⟩
  | quotation =>
      rw [Lead.of_eq_quotation_iff.1 lead] at splits
      exact exists_scanString splits
  | digit => exact exists_scanNumber (Lead.of_eq_digit_iff.1 lead) splits
  | letter => exact exists_scanWord (Lead.of_eq_letter_iff.1 lead) splits
  | mark symbol =>
      have single := Lead.of_eq_mark_iff.1 lead
      have spelling := Symbol.spelling_of_ofChar? single
      dsimp only
      by_cases isSlash : symbol = .slash
      · subst isSlash
        cases spelling
        exact exists_scanSlash splits
      · rw [Segment.cutSymbol_of_head? fun same => absurd same isSlash]
        cases symbol
        case slash => exact absurd rfl isSlash
        all_goals exact exists_scanMark spelling splits
  | nothing =>
      have notLineFeed : lineFeed ∉ [first] := by
        rintro member
        rw [← List.mem_singleton.1 member] at lead
        cases lead
      have scans : lexer.Scans [.stray first] _ := scans_report rfl lexer.cursor
      rw [Segment.text, lineAfter_of_not_mem notLineFeed] at scans
      exact ⟨_, rfl, scans, splits⟩

/-- Scanning a segment takes the segment that a cut of the text to come takes. -/
theorem exists_scanSegment
    (splits : lexer.cursor.Splits start taken (first :: rest)) :
    ∃ after, lexer.scanSegment = .ok after ∧
      lexer.Reads (start ++ taken) (Segment.cut first rest) after := by
  have marked := splits.mark
  let moved : Lexer := { lexer with cursor := lexer.cursor.mark.moveBy first }
  have movedSplits : moved.cursor.Splits (start ++ taken) [first] rest := marked.moveBy
  obtain ⟨after, scanned, scans, afterSplits⟩ := exists_scanAfter movedSplits
  refine ⟨after, ?_, scans.of_cursor, afterSplits⟩
  rw [scanSegment, marked.next_eq]
  exact scanned

end Scanners

/-! ## The whole text -/

theorem scanAll_of_scanSegment {lexer after : Lexer} {start taken rest : List Char}
    {first : Char} (splits : lexer.cursor.Splits start taken (first :: rest))
    (scanned : lexer.scanSegment = .ok after) : lexer.scanAll = after.scanAll := by
  have going : ¬ lexer.cursor.atEnd = true := by simp [splits.atEnd_eq]
  rw [scanAll, if_neg going]
  split
  next later laterEq =>
    rw [scanned] at laterEq
    cases laterEq
    rfl
  next fault faultEq =>
    rw [scanned] at faultEq
    cases faultEq

/-- A scan of all that is left finds the segments of the text to come. -/
theorem exists_scanAll {lexer : Lexer} {start taken left : List Char}
    (splits : lexer.cursor.Splits start taken left) :
    ∃ last, lexer.scanAll = .ok last ∧ lexer.Scans (segments left) last := by
  induction left using segments_induction generalizing lexer start taken with
  | empty =>
      have ended : lexer.cursor.atEnd = true := splits.atEnd_eq
      refine ⟨lexer, ?_, ?_⟩
      · rw [scanAll, if_pos ended]
      · rw [segments_nil]
        exact .nil lexer
  | step first rest ih =>
      obtain ⟨after, scanned, scans, afterSplits⟩ := exists_scanSegment splits
      obtain ⟨last, scannedAll, lastScans⟩ := ih afterSplits
      refine ⟨last, ?_, ?_⟩
      · rw [scanAll_of_scanSegment splits scanned, scannedAll]
      · rw [segments_cons]
        exact scans.append lastScans

/-- A lexer on its first line scans what is left as a text of its own, and adds what it
finds to what it has. -/
theorem scanTokens_of_splits {lexer : Lexer} {start taken left : List Char}
    (file : Option String) (splits : lexer.cursor.Splits start taken left)
    (labelEq : lexer.label = file.getD defaultLabel) (lineEq : lexer.line = 1) :
    lexer.scanTokens =
      .ok ⟨lexer.tokens.toList ++ (tokenize (String.ofList left) file).tokens,
        lexer.diagnostics.toList ++ (tokenize (String.ofList left) file).diagnostics⟩ := by
  obtain ⟨last, scannedAll, scans⟩ := exists_scanAll splits
  have lastFound : last.found =
      ⟨lexer.tokens.toList ++ (tokenize (String.ofList left) file).tokens,
        lexer.diagnostics.toList ++ (tokenize (String.ofList left) file).diagnostics⟩ := by
    simp [found, tokenize, events, scans.line_eq, scans.tokens_eq, scans.diagnostics_eq,
      flatMap_text_segments, labelEq, lineEq]
  rw [scanTokens, scannedAll, ← lastFound]
  rfl

/-- A scan over byte offsets from the start of a text gives its tokens and
diagnostics, and never faults. -/
theorem scanTokens_ofSource (source : String) (file : Option String) :
    (ofSource source file).scanTokens = .ok (tokenize source file) := by
  have splits : (ofSource source file).cursor.Splits [] [] source.toList :=
    Cursor.splits_ofSource source
  rw [scanTokens_of_splits file splits rfl rfl, String.ofList_toList]
  rfl

end Lexer

end LoxScanner
