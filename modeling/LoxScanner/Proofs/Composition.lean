import LoxScanner.Proofs.LineNumbers

/-!
# Texts joined by a line feed

What the end of a text does not continue, a line feed does not continue either, an
open string apart. So two texts joined by a line feed are scanned as the first, the
line feed, and the second on the lines that follow.
-/

namespace LoxScanner

/-! ## What goes on with a lexeme -/

section Run

variable {α : Type} {condition : α → Bool} {items rest other : List α} {stop : α}

theorem prefix_takeWhile_append (sameRun : other.takeWhile condition <+: rest)
    (items : List α) : (items ++ other).takeWhile condition <+: items ++ rest := by
  rw [List.takeWhile_append]
  split
  · exact (List.prefix_append_right_inj items).2 sameRun
  · exact (List.takeWhile_prefix condition).trans (List.prefix_append items rest)

theorem prefix_takeWhile_append_cons (stops : condition stop = false) (items others : List α) :
    (items ++ stop :: others).takeWhile condition <+: items := by
  have noRun : (stop :: others).takeWhile condition <+: [] := by simp [stops]
  have inItems := prefix_takeWhile_append noRun items
  rw [List.append_nil] at inItems
  exact inItems

theorem head?_of_prefix_takeWhile {item : α} (sameRun : other.takeWhile condition <+: rest)
    (isHead : other.head? = some item) (satisfied : condition item = true) :
    rest.head? = some item := by
  obtain ⟨others, rfl⟩ := List.head?_eq_some_iff.1 isHead
  rw [List.takeWhile_cons_of_pos satisfied] at sameRun
  obtain ⟨tail, rfl⟩ := sameRun
  rfl

end Run

/-- Whether a character can go on with a lexeme that is not a string, or make a comment
of a slash. -/
def continuesLexeme (c : Char) : Bool :=
  isWordChar c || c == '.' || c == '=' || c == '/'

theorem continuesLexeme_of_isWordChar {c : Char} (inWord : isWordChar c = true) :
    continuesLexeme c = true := by
  rw [continuesLexeme, inWord]
  rfl

theorem continuesLexeme_of_isDigit {c : Char} (isDigit : c.isDigit = true) :
    continuesLexeme c = true :=
  continuesLexeme_of_isWordChar (isWordChar_eq_true_iff.2 (Or.inr isDigit))

theorem continuesLexeme_eq_false_of_isWhitespace {c : Char} (blank : c.isWhitespace = true) :
    continuesLexeme c = false := by
  rcases isWhitespace_iff.1 blank with rfl | rfl | rfl | rfl <;> rfl

section Run

variable {rest other : List Char}

theorem Numeral.EndsBefore.of_run {numeral : Numeral} (ends : numeral.EndsBefore rest)
    (sameRun : other.takeWhile continuesLexeme <+: rest) : numeral.EndsBefore other := by
  refine ⟨?_, ?_⟩
  · intro c isHead
    rw [← Bool.not_eq_true]
    intro isDigit
    have inRest := head?_of_prefix_takeWhile sameRun isHead (continuesLexeme_of_isDigit isDigit)
    rw [ends.no_digit c inRest] at isDigit
    cases isDigit
  · rintro noFraction digit more rfl
    rw [← Bool.not_eq_true]
    intro isDigit
    have point : continuesLexeme '.' = true := rfl
    rw [List.takeWhile_cons_of_pos point,
      List.takeWhile_cons_of_pos (continuesLexeme_of_isDigit isDigit)] at sameRun
    obtain ⟨tail, rfl⟩ := sameRun
    rw [ends.no_point noFraction digit _ rfl] at isDigit
    cases isDigit

/-- A lexeme that a text does not continue is not continued by another text either, if the
characters at its start that could continue one are those of the first text. -/
theorem Lexeme.EndsBefore.of_run {found : Lexeme} (ends : found.EndsBefore rest)
    (sameRun : other.takeWhile continuesLexeme <+: rest) : found.EndsBefore other := by
  cases found with
  | symbol mark =>
      refine ⟨?_, ?_⟩
      · intro extensible isHead
        exact ends.1 extensible (head?_of_prefix_takeWhile sameRun isHead rfl)
      · intro isSlash isHead
        exact ends.2 isSlash (head?_of_prefix_takeWhile sameRun isHead rfl)
  | word letters =>
      intro c isHead
      rw [← Bool.not_eq_true]
      intro inWord
      have inRest :=
        head?_of_prefix_takeWhile sameRun isHead (continuesLexeme_of_isWordChar inWord)
      rw [ends c inRest] at inWord
      cases inWord
  | number numeral => exact Numeral.EndsBefore.of_run ends sameRun
  | string contents => trivial

end Run

/-- A lexeme that a text does not continue is not continued if a blank ends that
text. -/
theorem Lexeme.EndsBefore.append_blank {found : Lexeme} {rest others : List Char}
    {blank : Char} (ends : found.EndsBefore rest) (isBlank : blank.isWhitespace = true) :
    found.EndsBefore (rest ++ blank :: others) := by
  have stops : continuesLexeme blank = false :=
    continuesLexeme_eq_false_of_isWhitespace isBlank
  exact ends.of_run (prefix_takeWhile_append_cons stops rest others)

theorem Lexeme.endsBefore_of_blank {found : Lexeme} {rest : List Char}
    (blank : ∀ c, rest.head? = some c → c.isWhitespace = true) :
    found.EndsBefore rest := by
  have atEnd : found.EndsBefore [] := Segment.endsBefore_nil (.lexeme found)
  cases rest with
  | nil => exact atEnd
  | cons c others => exact atEnd.append_blank (blank c rfl)

/-! ## Segments before a line feed -/

namespace Segment

def IsOpen : Segment → Prop
  | openString _ => True
  | _ => False

theorem isOpen_iff_cause? {piece : Segment} :
    piece.IsOpen ↔ ∃ contents, piece.cause? = some (.unterminatedString contents) := by
  cases piece <;> simp [IsOpen, cause?]

theorem Longest.eq_nil_of_isOpen {piece : Segment} {rest : List Char}
    (longest : piece.Longest rest) (isOpen : piece.IsOpen) : rest = [] := by
  cases piece with
  | openString contents => exact longest.ends
  | _ => cases isOpen

/-- What goes on with a segment after another text is seen where that text starts: on a
lexeme in the characters that could continue one, on a comment in the end of its line, and
on an open string in the end of the text. -/
theorem Longest.of_run {piece : Segment} {rest other : List Char}
    (longest : piece.Longest rest) (sameRun : other.takeWhile continuesLexeme <+: rest)
    (lineEnds : ∀ remark, piece = comment remark → ∀ c, other.head? = some c → c = lineFeed)
    (textEnds : piece.IsOpen → other = []) : piece.Longest other := by
  obtain ⟨wellFormed, ends⟩ := longest
  refine ⟨wellFormed, ?_⟩
  cases piece with
  | lexeme found => exact Lexeme.EndsBefore.of_run ends sameRun
  | comment remark => exact lineEnds remark rfl
  | openString contents => exact textEnds trivial
  | space character => trivial
  | stray character => trivial

theorem Longest.append_lineFeed {piece : Segment} {rest : List Char}
    (longest : piece.Longest rest) (closed : ¬ piece.IsOpen) (others : List Char) :
    piece.Longest (rest ++ lineFeed :: others) := by
  apply longest.of_run (prefix_takeWhile_append_cons rfl rest others)
  · rintro remark rfl c isHead
    cases rest with
    | nil => exact (Option.some.inj isHead).symm
    | cons first more => exact longest.ends c isHead
  · intro isOpen
    exact absurd isOpen closed

theorem longest_lineFeed (rest : List Char) : (space lineFeed).Longest rest :=
  ⟨Or.inr (Or.inr (Or.inr rfl)), trivial⟩

end Segment

/-- Segments at the start of a text stay what they are if what follows them is replaced by
a text before which each of them stays what it is. -/
theorem Tiling.replaceEnd {front pieces morePieces : List Segment} {text others : List Char}
    (tiling : Tiling Segment.Longest (front ++ pieces) text)
    (carries : ∀ piece ∈ front, ∀ rest,
      piece.Longest (rest ++ pieces.flatMap Segment.text) → piece.Longest (rest ++ others))
    (more : Tiling Segment.Longest morePieces others) :
    Tiling Segment.Longest (front ++ morePieces) (front.flatMap Segment.text ++ others) := by
  induction front generalizing text with
  | nil => exact more
  | cons piece front ih =>
      cases tiling with
      | @cons _ _ rest longest tiling =>
          obtain ⟨pieceCarries, frontCarries⟩ := List.forall_mem_cons.1 carries
          rw [← tiling.flatMap_text, List.append_eq, List.flatMap_append] at longest
          rw [List.cons_append, List.flatMap_cons, List.append_assoc]
          exact .cons (pieceCarries _ longest) (ih tiling frontCarries)

theorem Tiling.append_lineFeed {pieces morePieces : List Segment}
    {text others : List Char} (tiling : Tiling Segment.Longest pieces text)
    (closed : ∀ piece ∈ pieces, ¬ piece.IsOpen)
    (more : Tiling Segment.Longest morePieces others) :
    Tiling Segment.Longest (pieces ++ .space lineFeed :: morePieces)
      (text ++ lineFeed :: others) := by
  have fed := Tiling.cons (Segment.longest_lineFeed others) more
  have textEq : pieces.flatMap Segment.text = text := tiling.flatMap_text
  rw [← List.append_nil pieces] at tiling
  rw [← textEq]
  apply tiling.replaceEnd _ fed
  intro piece member rest longest
  rw [List.flatMap_nil, List.append_nil] at longest
  exact longest.append_lineFeed (closed piece member) others

/-- A line feed cuts a text in two that are scanned apart, unless it stands in a
string. -/
theorem segments_append_lineFeed {text : List Char}
    (closed : ∀ piece ∈ segments text, ¬ piece.IsOpen) (others : List Char) :
    segments (text ++ lineFeed :: others) =
      segments text ++ .space lineFeed :: segments others :=
  ((segments_tiling text).append_lineFeed closed (segments_tiling others)).segments_eq

/-- No segment of a text is an open string if no diagnostic of its scan says so. -/
theorem not_isOpen_of_diagnostics {source : String} {file : Option String}
    (closed : ∀ diagnostic ∈ (tokenize source file).diagnostics,
      ∀ contents, diagnostic.cause ≠ .unterminatedString contents) :
    ∀ piece ∈ segments source.toList, ¬ piece.IsOpen := by
  intro piece member isOpen
  obtain ⟨contents, isCause⟩ := Segment.isOpen_iff_cause?.1 isOpen
  have causeMember : Cause.unterminatedString contents ∈
      (tokenize source file).diagnostics.map Diagnostic.cause := by
    rw [map_cause_diagnostics_tokenize]
    exact List.mem_filterMap.2 ⟨piece, member, isCause⟩
  obtain ⟨diagnostic, diagnosticMember, causeEq⟩ := List.mem_map.1 causeMember
  exact closed diagnostic diagnosticMember contents causeEq

/-! ## Events on later lines -/

/-- The number of lines of a text. -/
def lineCount (text : List Char) : Nat :=
  text.count lineFeed + 1

def Token.moveDown (lines : Nat) (token : Token) : Token :=
  { token with line := token.line + UInt32.ofNat lines }

def Diagnostic.moveDown (lines : Nat) (diagnostic : Diagnostic) : Diagnostic :=
  ⟨diagnostic.cause,
    ⟨diagnostic.position.line + UInt32.ofNat lines, diagnostic.position.file⟩⟩

namespace Event

def moveDown (lines : Nat) : Event → Event
  | token found => token (found.moveDown lines)
  | diagnostic found => diagnostic (found.moveDown lines)

theorem filterMap_map {α : Type} {read : Event → Option α} {move : Event → Event}
    {change : α → α} (commutes : ∀ event, read (move event) = (read event).map change)
    (found : List Event) :
    (found.map move).filterMap read = (found.filterMap read).map change := by
  rw [List.filterMap_map, List.map_filterMap]
  congr 1
  funext event
  exact commutes event

theorem filterMap_token?_moveDown (lines : Nat) (found : List Event) :
    (found.map (moveDown lines)).filterMap token? =
      (found.filterMap token?).map (Token.moveDown lines) :=
  filterMap_map (fun event => by cases event <;> rfl) found

theorem filterMap_diagnostic?_moveDown (lines : Nat) (found : List Event) :
    (found.map (moveDown lines)).filterMap diagnostic? =
      (found.filterMap diagnostic?).map (Diagnostic.moveDown lines) :=
  filterMap_map (fun event => by cases event <;> rfl) found

end Event

theorem lineAfter_add (line : UInt32) (lines : Nat) (text : List Char) :
    lineAfter (line + UInt32.ofNat lines) text =
      lineAfter line text + UInt32.ofNat lines := by
  simp only [lineAfter, UInt32.add_assoc]
  rw [UInt32.add_comm (UInt32.ofNat lines)]

theorem eventsFrom_add (label : String) (line : UInt32) (lines : Nat)
    (pieces : List Segment) :
    eventsFrom label (line + UInt32.ofNat lines) pieces =
      (eventsFrom label line pieces).map (Event.moveDown lines) := by
  induction pieces generalizing line with
  | nil => simp
  | cons piece pieces ih =>
      have eventEq : (piece.event? label (line + UInt32.ofNat lines)).toList =
          (piece.event? label line).toList.map (Event.moveDown lines) := by
        cases piece <;> rfl
      rw [eventsFrom_cons, eventsFrom_cons, lineAfter_add, ih, eventEq, List.map_append]

theorem lineAfter_append_lineFeed (line : UInt32) (text others : List Char) :
    lineAfter line (text ++ lineFeed :: others) =
      lineAfter line others + UInt32.ofNat (lineCount text) := by
  have countEq : (text ++ lineFeed :: others).count lineFeed =
      others.count lineFeed + lineCount text := by
    rw [lineCount, List.count_append, List.count_cons_self]
    omega
  rw [lineAfter, lineAfter, countEq, UInt32.ofNat_add, UInt32.add_assoc]

/-- The line feed itself gives no event. -/
theorem eventsFrom_segments_append_lineFeed (label : String) (line : UInt32)
    {text : List Char} (closed : ∀ piece ∈ segments text, ¬ piece.IsOpen)
    (others : List Char) :
    eventsFrom label line (segments (text ++ lineFeed :: others)) =
      eventsFrom label line (segments text) ++
        eventsFrom label (line + UInt32.ofNat (lineCount text)) (segments others) := by
  have laterLine : lineAfter line (text ++ [lineFeed]) =
      line + UInt32.ofNat (lineCount text) := by
    rw [lineAfter_append_lineFeed, lineAfter_nil]
  have blank : Segment.event? label (lineAfter line text) (.space lineFeed) = none := rfl
  rw [segments_append_lineFeed closed, eventsFrom_append, flatMap_text_segments,
    eventsFrom_cons, blank, Option.toList_none, List.nil_append, lineAfter_lineAfter,
    Segment.text, laterLine]

/-! ## The lines of a scan -/

theorem exists_line_of_mem_tokens {source : String} {file : Option String}
    {token : Token} (member : token ∈ (tokenize source file).tokens) :
    ∃ read left : List Char, source.toList = read ++ left ∧
      token.line = lineAfter 1 read := by
  rw [tokens_tokenize, List.mem_append, List.mem_filterMap, List.mem_singleton] at member
  rcases member with ⟨place, placeMember, isToken⟩ | rfl
  · obtain ⟨found, _, rfl⟩ := place.exists_lexeme_of_token? isToken
    exact ⟨place.before, _, (before_append_of_mem_placements placeMember).symm, rfl⟩
  · exact ⟨source.toList, [], (List.append_nil _).symm, rfl⟩

theorem exists_line_of_mem_diagnostics {source : String} {file : Option String}
    {diagnostic : Diagnostic}
    (member : diagnostic ∈ (tokenize source file).diagnostics) :
    ∃ read left : List Char, source.toList = read ++ left ∧
      diagnostic.position.line = lineAfter 1 read := by
  rw [diagnostics_tokenize, List.mem_filterMap] at member
  obtain ⟨place, placeMember, isDiagnostic⟩ := member
  obtain ⟨cause, _, rfl⟩ := Option.map_eq_some_iff.1 isDiagnostic
  exact ⟨place.before, _, (before_append_of_mem_placements placeMember).symm, rfl⟩

/-- A line of a text, moved down below another text, is counted without a wrap. -/
theorem toNat_lineAfter_add {lines : Nat} {text read left : List Char}
    (bounded : text.count lineFeed + lines ≤ UInt32.size - 2)
    (whole : text = read ++ left) :
    (lineAfter 1 read + UInt32.ofNat lines).toNat =
      (lineAfter 1 read).toNat + lines := by
  have size : UInt32.size = 4294967296 := rfl
  have readBounded : read.count lineFeed ≤ text.count lineFeed := by
    rw [whole, List.count_append]
    omega
  have readLine : (lineAfter 1 read).toNat = 1 + read.count lineFeed :=
    toNat_lineAfter (by omega)
  rw [UInt32.toNat_add, UInt32.toNat_ofNat', readLine]
  omega

/-! ## Composition -/

theorem toList_append_lineFeed (before after : String) :
    (before ++ "\n" ++ after).toList =
      before.toList ++ lineFeed :: after.toList := by
  simp [String.toList_append, lineFeed]

/-- If no string is left open in a text, the scan of that text, a line feed and
another text has the tokens and diagnostics of the two, those of the second moved
down by the lines of the first. -/
theorem tokenize_append_lineFeed (before after : String) (file : Option String)
    (closed : ∀ diagnostic ∈ (tokenize before file).diagnostics,
      ∀ contents, diagnostic.cause ≠ .unterminatedString contents)
    (bounded : (before ++ "\n" ++ after).toList.count lineFeed ≤ UInt32.size - 2) :
    (tokenize (before ++ "\n" ++ after) file).tokens =
      (tokenize before file).tokens.dropLast ++
        (tokenize after file).tokens.map (Token.moveDown (lineCount before.toList)) ∧
    (tokenize (before ++ "\n" ++ after) file).diagnostics =
      (tokenize before file).diagnostics ++
        (tokenize after file).diagnostics.map
          (Diagnostic.moveDown (lineCount before.toList)) ∧
    (∀ token ∈ (tokenize after file).tokens,
      (token.moveDown (lineCount before.toList)).line.toNat =
        token.line.toNat + lineCount before.toList) ∧
    ∀ diagnostic ∈ (tokenize after file).diagnostics,
      (diagnostic.moveDown (lineCount before.toList)).position.line.toNat =
        diagnostic.position.line.toNat + lineCount before.toList := by
  have openFree := not_isOpen_of_diagnostics closed
  have eventsEq := eventsFrom_segments_append_lineFeed (file.getD defaultLabel) 1
    openFree after.toList
  rw [eventsFrom_add] at eventsEq
  have lastLine := lineAfter_append_lineFeed 1 before.toList after.toList
  have afterBounded : after.toList.count lineFeed + lineCount before.toList ≤
      UInt32.size - 2 := by
    rw [toList_append_lineFeed, List.count_append, List.count_cons_self] at bounded
    rw [lineCount]
    omega
  refine ⟨?_, ?_, ?_, ?_⟩
  · simp only [tokenize, events, toList_append_lineFeed, eventsEq, lastLine,
      List.filterMap_append, Event.filterMap_token?_moveDown, List.dropLast_concat,
      List.map_append, List.append_assoc]
    rfl
  · simp only [tokenize, events, toList_append_lineFeed, eventsEq,
      List.filterMap_append, Event.filterMap_diagnostic?_moveDown]
  · intro token member
    obtain ⟨read, left, whole, lineEq⟩ := exists_line_of_mem_tokens member
    rw [Token.moveDown, lineEq]
    exact toNat_lineAfter_add afterBounded whole
  · intro diagnostic member
    obtain ⟨read, left, whole, lineEq⟩ := exists_line_of_mem_diagnostics member
    rw [Diagnostic.moveDown, lineEq]
    exact toNat_lineAfter_add afterBounded whole

/-- The first text ends in a comment with a quote, after a point without a digit. -/
theorem composition_below_comment :
    (∀ diagnostic ∈ (tokenize "a @\n1. // \"" none).diagnostics,
      ∀ contents, diagnostic.cause ≠ .unterminatedString contents) ∧
    ("a @\n1. // \"" ++ "\n" ++ "\"s\n\" $").toList.count lineFeed ≤ UInt32.size - 2 ∧
    ((tokenize ("a @\n1. // \"" ++ "\n" ++ "\"s\n\" $") none).tokens.map fun token =>
      (token.lexeme, token.line.toNat)) =
        [("a", 1), ("1", 2), (".", 2), ("\"s\n\"", 3), ("", 4)] ∧
    (tokenize ("a @\n1. // \"" ++ "\n" ++ "\"s\n\" $") none).diagnostics =
      [⟨.unexpectedCharacter '@', ⟨1, "shell"⟩⟩,
        ⟨.unexpectedCharacter '$', ⟨4, "shell"⟩⟩] := by
  have found : (tokenize "a @\n1. // \"" none).diagnostics =
      [⟨.unexpectedCharacter '@', ⟨1, "shell"⟩⟩] := by
    decide +kernel
  have closed : ∀ diagnostic ∈ (tokenize "a @\n1. // \"" none).diagnostics,
      ∀ contents, diagnostic.cause ≠ .unterminatedString contents := by
    simp [found]
  have bounded : ("a @\n1. // \"" ++ "\n" ++ "\"s\n\" $").toList.count lineFeed ≤
      UInt32.size - 2 := by
    decide
  obtain ⟨tokens, diagnostics, -⟩ := tokenize_append_lineFeed _ _ none closed bounded
  refine ⟨closed, bounded, ?_, ?_⟩
  · rw [tokens]
    decide +kernel
  · rw [diagnostics]
    decide +kernel

end LoxScanner
