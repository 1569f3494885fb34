import LoxScanner.Proofs.PromptFile

/-!
# Longer line endings

A carriage return put before a line feed is white space to a scan, or the end of a
comment, or part of a string. So a text with the longer line endings has the same
tokens and diagnostics on the same lines, with the longer endings inside strings only.
A line is shown without the carriage return at its end, so that the reports say the same.
-/

namespace LoxScanner

/-! ## Carriage returns before line feeds -/

/-- A text with a carriage return put before each of its line feeds. -/
def putReturns (text : List Char) : List Char :=
  text.flatMap fun c => if c = lineFeed then [carriageReturn, lineFeed] else [c]

section PutReturns

variable {c : Char} {text line : List Char}

theorem putReturns_append (text others : List Char) :
    putReturns (text ++ others) = putReturns text ++ putReturns others :=
  List.flatMap_append

theorem putReturns_lineFeed_cons (rest : List Char) :
    putReturns (lineFeed :: rest) = carriageReturn :: lineFeed :: putReturns rest := by
  rw [putReturns, List.flatMap_cons, if_pos rfl]
  rfl

theorem putReturns_cons (other : c ≠ lineFeed) (rest : List Char) :
    putReturns (c :: rest) = c :: putReturns rest := by
  rw [putReturns, List.flatMap_cons, if_neg other]
  rfl

theorem putReturns_of_not_mem (absent : lineFeed ∉ text) : putReturns text = text := by
  induction text with
  | nil => rfl
  | cons c rest ih =>
      rw [List.mem_cons, not_or] at absent
      rw [putReturns_cons (Ne.symm absent.1), ih absent.2]

theorem putReturns_line_append (absent : lineFeed ∉ line) (rest : List Char) :
    putReturns (line ++ lineFeed :: rest) =
      (line ++ [carriageReturn]) ++ lineFeed :: putReturns rest := by
  rw [putReturns_append, putReturns_of_not_mem absent, putReturns_lineFeed_cons,
    List.append_cons]

theorem putReturns_eq_nil : putReturns text = [] ↔ text = [] := by
  cases text with
  | nil => exact iff_of_true rfl rfl
  | cons c rest =>
      by_cases isLineFeed : c = lineFeed
      · simp [isLineFeed, putReturns_lineFeed_cons]
      · simp [putReturns_cons isLineFeed]

theorem mem_of_mem_putReturns (other : c ≠ carriageReturn) (member : c ∈ putReturns text) :
    c ∈ text := by
  obtain ⟨item, itemMember, found⟩ := List.mem_flatMap.1 member
  by_cases isLineFeed : item = lineFeed
  · rw [if_pos isLineFeed] at found
    rcases List.mem_cons.1 found with isReturn | isItem
    · exact absurd isReturn other
    · rw [List.mem_singleton.1 isItem, ← isLineFeed]
      exact itemMember
  · rw [if_neg isLineFeed] at found
    rw [List.mem_singleton.1 found]
    exact itemMember

theorem count_lineFeed_putReturns (text : List Char) :
    (putReturns text).count lineFeed = text.count lineFeed := by
  induction text with
  | nil => rfl
  | cons c rest ih =>
      by_cases isLineFeed : c = lineFeed
      · have different : carriageReturn ≠ lineFeed := by decide
        rw [isLineFeed, putReturns_lineFeed_cons, List.count_cons_of_ne different,
          List.count_cons_self, List.count_cons_self, ih]
      · rw [putReturns_cons isLineFeed, List.count_cons_of_ne isLineFeed,
          List.count_cons_of_ne isLineFeed, ih]

theorem lineAfter_putReturns (line : UInt32) (text : List Char) :
    lineAfter line (putReturns text) = lineAfter line text := by
  rw [lineAfter, lineAfter, count_lineFeed_putReturns]

theorem prefix_takeWhile_putReturns (text : List Char) :
    (putReturns text).takeWhile continuesLexeme <+: text := by
  induction text with
  | nil => exact List.prefix_rfl
  | cons c rest ih =>
      by_cases isLineFeed : c = lineFeed
      · have stops : continuesLexeme carriageReturn = false := rfl
        rw [isLineFeed, putReturns_lineFeed_cons]
        exact (prefix_takeWhile_append_cons stops [] _).trans List.nil_prefix
      · rw [putReturns_cons isLineFeed]
        exact prefix_takeWhile_append ih [c]

end PutReturns

/-- A text with the longer line endings. -/
def textWithReturns (text : String) : String :=
  String.ofList (putReturns text.toList)

theorem toList_textWithReturns (text : String) :
    (textWithReturns text).toList = putReturns text.toList :=
  String.toList_ofList

/-! ## Segments with the longer endings -/

/-- Of the lexemes only a string can go over the end of a line. -/
def Lexeme.withReturns : Lexeme → Lexeme
  | string contents => string (putReturns contents)
  | found => found

namespace Lexeme

theorem text_withReturns {found : Lexeme} (wellFormed : found.WellFormed) :
    found.withReturns.text = putReturns found.text := by
  cases found with
  | string contents =>
      have opening : putReturns (quote :: (contents ++ [quote])) =
          quote :: putReturns (contents ++ [quote]) := putReturns_cons (by decide) _
      have closing : putReturns [quote] = [quote] := rfl
      rw [withReturns, text, text, List.cons_append, List.cons_append, opening,
        putReturns_append, closing]
  | _ => exact (putReturns_of_not_mem (blank_not_mem_text wellFormed (by simp) rfl)).symm

theorem wellFormed_withReturns {found : Lexeme} (wellFormed : found.WellFormed) :
    found.withReturns.WellFormed := by
  cases found with
  | string contents =>
      have absent : quote ∉ contents := wellFormed
      exact fun member => absent (mem_of_mem_putReturns (by decide) member)
  | _ => exact wellFormed

/-- A lexeme that a text does not continue is not continued by the text with longer
endings. -/
theorem EndsBefore.withReturns {found : Lexeme} {rest : List Char}
    (ends : found.EndsBefore rest) : found.withReturns.EndsBefore (putReturns rest) := by
  cases found with
  | string contents => trivial
  | _ => exact ends.of_run (prefix_takeWhile_putReturns rest)

end Lexeme

/-- A string, closed or open, gets the longer endings. -/
def Segment.withReturns : Segment → Segment
  | lexeme found => lexeme found.withReturns
  | openString contents => openString (putReturns contents)
  | piece => piece

namespace Segment

theorem text_withReturns {piece : Segment} (wellFormed : piece.WellFormed)
    (notLineFeed : piece ≠ space lineFeed) :
    piece.withReturns.text = putReturns piece.text := by
  cases piece with
  | lexeme found => exact Lexeme.text_withReturns wellFormed
  | space character =>
      have different : character ≠ lineFeed := by
        rintro rfl
        exact notLineFeed rfl
      exact (putReturns_cons different []).symm
  | comment remark =>
      have absent : lineFeed ∉ remark := wellFormed
      have notSlash : lineFeed ≠ '/' := by decide
      have absentText : lineFeed ∉ '/' :: '/' :: remark := by simp [notSlash, absent]
      exact (putReturns_of_not_mem absentText).symm
  | stray character =>
      have different : character ≠ lineFeed := by
        rintro rfl
        exact absurd wellFormed.1 (by decide)
      exact (putReturns_cons different []).symm
  | openString contents =>
      have isOther : quote ≠ lineFeed := by decide
      exact (putReturns_cons isOther contents).symm

/-- The longer endings after a segment do not continue it, unless it is a comment, which
goes on with the carriage return. -/
theorem Longest.withReturns {piece : Segment} {rest : List Char}
    (longest : piece.Longest rest) (notComment : ∀ remark, piece = comment remark → rest = []) :
    piece.withReturns.Longest (putReturns rest) := by
  obtain ⟨wellFormed, ends⟩ := longest
  cases piece with
  | lexeme found =>
      exact ⟨Lexeme.wellFormed_withReturns wellFormed, Lexeme.EndsBefore.withReturns ends⟩
  | space character => exact ⟨wellFormed, trivial⟩
  | comment remark =>
      rw [notComment remark rfl]
      exact ⟨wellFormed, endsBefore_nil (comment remark)⟩
  | stray character => exact ⟨wellFormed, trivial⟩
  | openString contents =>
      have absent : quote ∉ contents := wellFormed
      refine ⟨?_, putReturns_eq_nil.2 ends⟩
      exact fun member => absent (mem_of_mem_putReturns (by decide) member)

end Segment

/-! ## Scans with the longer endings -/

def Literal.withReturns : Literal → Literal
  | string contents => string (textWithReturns contents)
  | number value => number value

/-- A token with the longer endings in its lexeme and in the text that it carries. -/
def Token.withReturns (token : Token) : Token :=
  ⟨token.kind, textWithReturns token.lexeme, token.literal.map Literal.withReturns,
    token.line⟩

def Cause.withReturns : Cause → Cause
  | unexpectedCharacter character => unexpectedCharacter character
  | unterminatedString contents => unterminatedString (textWithReturns contents)

def Diagnostic.withReturns (diagnostic : Diagnostic) : Diagnostic :=
  ⟨diagnostic.cause.withReturns, diagnostic.position⟩

def Event.withReturns : Event → Event
  | token found => token found.withReturns
  | diagnostic found => diagnostic found.withReturns

theorem Lexeme.token_withReturns {found : Lexeme} (wellFormed : found.WellFormed)
    (line : UInt32) : found.withReturns.token line = (found.token line).withReturns := by
  have lexemeEq : String.ofList found.withReturns.text =
      textWithReturns (String.ofList found.text) := by
    rw [text_withReturns wellFormed, textWithReturns, String.toList_ofList]
  rw [token, lexemeEq]
  cases found with
  | string contents =>
      simp [token, Token.withReturns, withReturns, kind, literal?, Literal.withReturns,
        textWithReturns]
  | _ => rfl

namespace Segment

variable {piece : Segment} {rest : List Char}

theorem event?_withReturns (wellFormed : piece.WellFormed) (label : String)
    (line : UInt32) :
    piece.withReturns.event? label line =
      (piece.event? label line).map Event.withReturns := by
  cases piece with
  | lexeme found =>
      rw [withReturns, event?, Lexeme.token_withReturns wellFormed]
      rfl
  | openString contents =>
      simp [withReturns, event?, Event.withReturns, Diagnostic.withReturns,
        Cause.withReturns, textWithReturns]
  | _ => rfl

/-- A comment goes on with the carriage return that comes before its line feed. -/
theorem segments_comment_return {remark : List Char} (oneLine : lineFeed ∉ remark)
    (others : List Char) :
    segments ((comment remark).text ++ carriageReturn :: lineFeed :: others) =
      comment (remark ++ [carriageReturn]) :: segments (lineFeed :: others) := by
  have different : lineFeed ≠ carriageReturn := by decide
  have longest : (comment (remark ++ [carriageReturn])).Longest (lineFeed :: others) := by
    refine ⟨by simp [WellFormed, oneLine, different], ?_⟩
    intro c isHead
    exact (Option.some.inj isHead).symm
  have whole := longest.segments_append
  rw [← whole]
  simp [text]

end Segment

theorem eventsFrom_segments_return (label : String) (line : UInt32) (others : List Char) :
    eventsFrom label line (segments (carriageReturn :: others)) =
      eventsFrom label line (segments others) := by
  have segmentsEq : segments (carriageReturn :: others) =
      .space carriageReturn :: segments others := segments_cons carriageReturn others
  have sameLine : lineAfter line [carriageReturn] = line :=
    lineAfter_of_not_mem (by decide)
  rw [segmentsEq, eventsFrom_cons, Segment.text, sameLine]
  rfl

theorem eventsFrom_segments_lineFeed (label : String) (line : UInt32) (others : List Char) :
    eventsFrom label line (segments (lineFeed :: others)) =
      eventsFrom label (lineAfter line [lineFeed]) (segments others) := by
  have segmentsEq : segments (lineFeed :: others) =
      .space lineFeed :: segments others := segments_cons lineFeed others
  rw [segmentsEq, eventsFrom_cons]
  rfl

/-- With the longer endings a segment gives the event that it gives without them, with
the longer endings in its text, and leaves the scan on the same line. -/
theorem Segment.Longest.eventsFrom_putReturns {piece : Segment} {rest : List Char}
    (longest : piece.Longest rest) (label : String) (line : UInt32) :
    eventsFrom label line (segments (putReturns (piece.text ++ rest))) =
      (piece.event? label line).toList.map Event.withReturns ++
        eventsFrom label (lineAfter line piece.text) (segments (putReturns rest)) := by
  by_cases isLineFeed : piece = .space lineFeed
  · have textEq : putReturns (piece.text ++ rest) =
        carriageReturn :: lineFeed :: putReturns rest := by
      rw [isLineFeed]
      exact putReturns_lineFeed_cons rest
    rw [textEq, eventsFrom_segments_return, eventsFrom_segments_lineFeed, isLineFeed]
    rfl
  by_cases meets : ∃ remark others, piece = .comment remark ∧ rest = lineFeed :: others
  · obtain ⟨remark, others, rfl, rfl⟩ := meets
    have oneLine : lineFeed ∉ remark := longest.wellFormed
    have kept : putReturns (comment remark).text = (comment remark).text :=
      (text_withReturns longest.wellFormed isLineFeed).symm
    have sameLine : lineAfter line (comment (remark ++ [carriageReturn])).text =
        lineAfter line (comment remark).text := by
      simp [lineAfter, text, carriageReturn, lineFeed]
    rw [putReturns_append, kept, putReturns_lineFeed_cons,
      segments_comment_return oneLine, eventsFrom_cons, sameLine,
      eventsFrom_segments_return]
    rfl
  · have notComment : ∀ remark, piece = .comment remark → rest = [] := by
      rintro remark rfl
      cases rest with
      | nil => rfl
      | cons c others =>
          have isFeed : c = lineFeed := longest.ends c rfl
          exact absurd ⟨remark, others, rfl, by rw [isFeed]⟩ meets
    have textEq := text_withReturns longest.wellFormed isLineFeed
    rw [putReturns_append, ← textEq, (longest.withReturns notComment).segments_append,
      eventsFrom_cons, event?_withReturns longest.wellFormed, textEq, lineAfter_putReturns]
    cases piece.event? label line <;> rfl

/-- The events of a text with the longer endings. -/
theorem eventsFrom_segments_putReturns (label : String) (line : UInt32) (text : List Char) :
    eventsFrom label line (segments (putReturns text)) =
      (eventsFrom label line (segments text)).map Event.withReturns := by
  induction text using segments_induction generalizing line with
  | empty =>
      have noText : putReturns [] = [] := rfl
      rw [noText, segments_nil, eventsFrom_nil, List.map_nil]
  | step first rest ih =>
      have longest := Segment.cut_longest first rest
      have events := longest.eventsFrom_putReturns label line
      rw [Segment.text_cut_append, ih] at events
      rw [events, segments_cons, eventsFrom_cons, List.map_append]

theorem events_textWithReturns (source label : String) :
    events (textWithReturns source) label = (events source label).map Event.withReturns := by
  rw [events, events, toList_textWithReturns, eventsFrom_segments_putReturns]

theorem tokens_textWithReturns (source : String) (file : Option String) :
    (tokenize (textWithReturns source) file).tokens =
      (tokenize source file).tokens.map Token.withReturns := by
  have kept : ∀ event : Event,
      event.withReturns.token? = event.token?.map Token.withReturns :=
    fun event => by cases event <;> rfl
  have lastLine : Token.endOfText (lineAfter 1 (textWithReturns source).toList) =
      (Token.endOfText (lineAfter 1 source.toList)).withReturns := by
    rw [toList_textWithReturns, lineAfter_putReturns]
    rfl
  simp only [tokenize, events_textWithReturns, Event.filterMap_map kept, lastLine,
    List.map_append, List.map_singleton]

theorem diagnostics_textWithReturns (source : String) (file : Option String) :
    (tokenize (textWithReturns source) file).diagnostics =
      (tokenize source file).diagnostics.map Diagnostic.withReturns := by
  have kept : ∀ event : Event,
      event.withReturns.diagnostic? = event.diagnostic?.map Diagnostic.withReturns :=
    fun event => by cases event <;> rfl
  simp only [tokenize, events_textWithReturns, Event.filterMap_map kept]

/-! ## Reports with the longer endings -/

section Lines

variable {text line rest : List Char}

theorem dropReturn_of_getLast? (other : line.getLast? ≠ some carriageReturn) :
    dropReturn line = line :=
  dropAtEnd_of_getLast? other

theorem dropReturn_of_not_mem (noReturn : carriageReturn ∉ line) : dropReturn line = line :=
  dropReturn_of_getLast? fun isLast => noReturn (List.mem_of_getLast? isLast)

theorem dropReturn_append_return (line : List Char) :
    dropReturn (line ++ [carriageReturn]) = line :=
  dropAtEnd_append_singleton carriageReturn line

theorem lineFeed_not_mem_append_return (absent : lineFeed ∉ line) :
    lineFeed ∉ line ++ [carriageReturn] := by
  have different : lineFeed ≠ carriageReturn := by decide
  simp [absent, different]

/-- The carriage return before a line feed is dropped with it. -/
theorem map_dropReturn_splitOn_putReturns (noReturn : carriageReturn ∉ text) :
    ((putReturns text).splitOn lineFeed).map dropReturn =
      (text.splitOn lineFeed).map dropReturn := by
  induction text using lines_induction lineFeed with
  | last line absent => rw [putReturns_of_not_mem absent]
  | step line rest absent ih =>
      rw [List.mem_append, not_or, List.mem_cons, not_or] at noReturn
      obtain ⟨notInLine, -, notInRest⟩ := noReturn
      rw [putReturns_line_append absent,
        List.splitOn_append_cons_self_of_not_mem (lineFeed_not_mem_append_return absent),
        List.splitOn_append_cons_self_of_not_mem absent, List.map_cons, List.map_cons,
        dropReturn_append_return, dropReturn_of_not_mem notInLine, ih notInRest]

theorem line?_putReturns (noReturn : carriageReturn ∉ text) (number : Nat) :
    line? (putReturns text) number = line? text number := by
  cases number with
  | zero => rfl
  | succ index =>
      rw [line?, line?, ← List.getElem?_map, ← List.getElem?_map,
        map_dropReturn_splitOn_putReturns noReturn]

theorem firstLine_line_append (absent : lineFeed ∉ line) (rest : List Char) :
    firstLine (line ++ lineFeed :: rest) = dropReturn line := by
  have isFeed : ∀ c, (lineFeed :: rest).head? = some c → c = lineFeed :=
    fun c isHead => (Option.some.inj isHead).symm
  have taken := (takeWhile_dropWhile_ne absent isFeed).1
  have feeds : lineFeed ∈ line ++ lineFeed :: rest := by simp
  rw [firstLine, taken, if_pos feeds]

theorem firstLine_putReturns (noReturn : carriageReturn ∉ text) :
    firstLine (putReturns text) = firstLine text := by
  by_cases feeds : lineFeed ∈ text
  · obtain ⟨line, rest, rfl, absent⟩ := List.eq_append_cons_of_mem feeds
    have notInLine : carriageReturn ∉ line :=
      fun member => noReturn (List.mem_append_left _ member)
    rw [putReturns_line_append absent,
      firstLine_line_append (lineFeed_not_mem_append_return absent),
      firstLine_line_append absent, dropReturn_append_return,
      dropReturn_of_not_mem notInLine]
  · rw [putReturns_of_not_mem feeds]

end Lines

/-- A cause that quotes no carriage return. -/
def Cause.NoReturn : Cause → Prop
  | unexpectedCharacter _ => True
  | unterminatedString contents => carriageReturn ∉ contents.toList

theorem Cause.tip_withReturns {cause : Cause} (noReturn : cause.NoReturn) :
    cause.withReturns.tip = cause.tip := by
  cases cause with
  | unexpectedCharacter character => rfl
  | unterminatedString contents =>
      have sameEmpty : textWithReturns contents = "" ↔ contents = "" := by
        rw [← String.toList_eq_nil_iff, toList_textWithReturns, putReturns_eq_nil,
          String.toList_eq_nil_iff]
      rw [withReturns, tip, tip]
      simp only [sameEmpty, toList_textWithReturns, firstLine_putReturns noReturn]

namespace Diagnostic

theorem display_withReturns (diagnostic : Diagnostic) :
    diagnostic.withReturns.display = diagnostic.display := by
  obtain ⟨cause, position⟩ := diagnostic
  cases cause <;> rfl

theorem render_withReturns {diagnostic : Diagnostic} {source : String}
    (causeFree : diagnostic.cause.NoReturn) (noReturn : carriageReturn ∉ source.toList) :
    diagnostic.withReturns.render (textWithReturns source) = diagnostic.render source := by
  have sameName : diagnostic.cause.withReturns.name = diagnostic.cause.name := by
    cases diagnostic.cause <;> rfl
  have sameHeader : Report.header diagnostic.withReturns.cause =
      Report.header diagnostic.cause := by
    rw [Report.header, Report.header, withReturns, Cause.tip_withReturns causeFree, sameName]
  rw [render, render, Report.rows, Report.rows, sameHeader, toList_textWithReturns,
    line?_putReturns noReturn]
  rfl

end Diagnostic

theorem noReturn_of_mem_diagnostics {source : String} {file : Option String}
    (noReturn : carriageReturn ∉ source.toList) {diagnostic : Diagnostic}
    (member : diagnostic ∈ (tokenize source file).diagnostics) :
    diagnostic.cause.NoReturn := by
  rw [diagnostics_tokenize] at member
  obtain ⟨place, placeMember, isDiagnostic⟩ := List.mem_filterMap.1 member
  obtain ⟨cause, isCause, rfl⟩ := Option.map_eq_some_iff.1 isDiagnostic
  have whole := before_append_of_mem_placements placeMember
  obtain ⟨before, piece, after⟩ := place
  cases piece with
  | stray character =>
      cases isCause
      trivial
  | openString contents =>
      cases isCause
      intro inContents
      rw [String.toList_ofList] at inContents
      apply noReturn
      rw [← whole]
      simp [Segment.text, inContents]
  | lexeme found => cases isCause
  | space character => cases isCause
  | comment remark => cases isCause

theorem complaints_textWithReturns {source : String} (file : Option String)
    (noReturn : carriageReturn ∉ source.toList) :
    (tokenize (textWithReturns source) file).complaints (textWithReturns source) =
      (tokenize source file).complaints source := by
  rw [Scan.complaints, Scan.complaints, diagnostics_textWithReturns, List.map_map]
  congr 1
  apply List.map_congr_left
  intro diagnostic member
  rw [Function.comp_apply, Diagnostic.display_withReturns,
    Diagnostic.render_withReturns (noReturn_of_mem_diagnostics noReturn member) noReturn]

/-- A text without a carriage return and the same text with the longer line endings have
the same tokens and diagnostics on the same lines, but for the longer endings in the texts
of strings, the same lines, and the same reports. So a run of a file with the one ends as
a run of a file with the other, with the same complaints. -/
theorem tokenize_textWithReturns (source : String) (file : Option String)
    (noReturn : carriageReturn ∉ source.toList) :
    (tokenize (textWithReturns source) file).tokens =
      (tokenize source file).tokens.map Token.withReturns ∧
    (tokenize (textWithReturns source) file).diagnostics =
      (tokenize source file).diagnostics.map Diagnostic.withReturns ∧
    (∀ number, line? (textWithReturns source).toList number = line? source.toList number) ∧
    (∀ diagnostic ∈ (tokenize source file).diagnostics,
      diagnostic.withReturns.render (textWithReturns source) = diagnostic.render source) ∧
    ∀ (read other : String → Except ReadFailure (List UInt8)) (input : List UInt8)
      (path : String) (bytes longer : List UInt8),
      read path = .ok bytes → decodeText bytes = .ok source →
      other path = .ok longer → decodeText longer = .ok (textWithReturns source) →
        (Command.run other input (.file path)).ending =
            (Command.run read input (.file path)).ending ∧
          (Command.run other input (.file path)).written.errors =
            (Command.run read input (.file path)).written.errors := by
  refine ⟨tokens_textWithReturns source file, diagnostics_textWithReturns source file,
    ?_, ?_, ?_⟩
  · intro number
    rw [toList_textWithReturns, line?_putReturns noReturn]
  · intro diagnostic member
    exact Diagnostic.render_withReturns (noReturn_of_mem_diagnostics noReturn member) noReturn
  · intro read other input path bytes longer contents decoded otherContents otherDecoded
    rw [Command.run_file contents decoded, Command.run_file otherContents otherDecoded]
    refine ⟨?_, complaints_textWithReturns _ noReturn⟩
    simp only [diagnostics_textWithReturns, List.map_eq_nil_iff]

/-- A line feed after a comment, in a string, and in a string left open. -/
theorem longer_endings_inside_strings :
    let source := "1 // x\n\"a\nb\"\n@\"c\nd"
    let longer := "1 // x\r\n\"a\r\nb\"\r\n@\"c\r\nd"
    carriageReturn ∉ source.toList ∧ textWithReturns source = longer ∧
    ((tokenize longer none).tokens.map fun token => (token.lexeme, token.line.toNat)) =
      [("1", 1), ("\"a\r\nb\"", 2), ("", 5)] ∧
    (tokenize longer none).diagnostics =
      [⟨.unexpectedCharacter '@', ⟨4, "shell"⟩⟩,
        ⟨.unterminatedString "c\r\nd", ⟨4, "shell"⟩⟩] ∧
    line? longer.toList 4 = line? source.toList 4 ∧
    (Command.run (fun _ => .ok (encode longer.toList)) [] (.file "x.lox")).written.errors =
      (Command.run (fun _ => .ok (encode source.toList)) [] (.file "x.lox")).written.errors := by
  intro source longer
  have noReturn : carriageReturn ∉ source.toList := by decide
  have longerEq : textWithReturns source = longer := by decide +kernel
  have decoded : ∀ text : String, decodeText (encode text.toList) = .ok text := by
    intro text
    rw [decodeText_encode, String.ofList_toList]
  obtain ⟨tokens, diagnostics, lines, -, runs⟩ := tokenize_textWithReturns source none noReturn
  rw [longerEq] at tokens diagnostics lines runs
  refine ⟨noReturn, longerEq, ?_, ?_, lines 4, ?_⟩
  · rw [tokens]
    decide +kernel
  · rw [diagnostics]
    decide +kernel
  · exact And.right (runs _ _ [] "x.lox" _ _ rfl (decoded source) rfl (decoded longer))

end LoxScanner
