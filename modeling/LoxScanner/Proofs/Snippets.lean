import LoxScanner.Proofs.ShownLines

/-!
# What a report shows of its cause

A report shows its line without the white space at the line's ends. Unicode has more
white space than the four characters that a scan goes over in silence: it reports each of
the others as unexpected. If nothing but white space stands on one side of such a
character in its line, the report does not show what it complains about.
-/

namespace LoxScanner

/-! ## Places that trimming keeps -/

section DropWhile

variable {α : Type} {p : α → Bool} {front back kept items : List α} {item : α}

theorem dropWhile_append_cons (stops : ∃ x ∈ front ++ [item], p x = false) :
    (front ++ item :: back).dropWhile p = front.dropWhile p ++ item :: back := by
  rw [List.dropWhile_append]
  by_cases isEmpty : (front.dropWhile p).isEmpty = true
  · have allDropped : ∀ x ∈ front, p x = true :=
      List.dropWhile_eq_nil_iff.1 (List.isEmpty_iff.1 isEmpty)
    have atItem : p item = false := by
      obtain ⟨x, member, notDropped⟩ := stops
      rcases List.mem_append.1 member with inFront | isItem
      · rw [allDropped x inFront] at notDropped
        cases notDropped
      · rw [List.mem_singleton.1 isItem] at notDropped
        exact notDropped
    rw [if_pos isEmpty, List.isEmpty_iff.1 isEmpty, List.nil_append,
      List.dropWhile_cons_of_neg (by simp [atItem])]
  · rw [if_neg isEmpty]

theorem rdropWhile_append_cons (stops : ∃ x ∈ item :: back, p x = false) :
    (front ++ item :: back).rdropWhile p = front ++ item :: back.rdropWhile p := by
  have stopsReversed : ∃ x ∈ back.reverse ++ [item], p x = false := by
    obtain ⟨x, member, notDropped⟩ := stops
    refine ⟨x, ?_, notDropped⟩
    rw [← List.reverse_cons]
    exact List.mem_reverse.2 member
  rw [List.rdropWhile, List.reverse_append, List.reverse_cons, List.append_assoc,
    List.singleton_append, dropWhile_append_cons stopsReversed, List.reverse_append,
    List.reverse_cons, List.reverse_reverse, List.append_assoc, List.singleton_append]
  rfl

theorem exists_of_prefix_dropWhile (isPrefix : kept <+: items.dropWhile p)
    (notEmpty : kept ≠ []) : ∃ x ∈ kept, p x = false := by
  obtain ⟨others, itemsEq⟩ := isPrefix
  cases kept with
  | nil => exact absurd rfl notEmpty
  | cons first kept =>
      have atFirst := List.head?_dropWhile_not p items
      rw [← itemsEq] at atFirst
      exact ⟨first, List.mem_cons_self, atFirst⟩

end DropWhile

section Trim

variable {text front back : List Char} {c : Char}

/-- A character between two parts of a text that is in the white space at neither end of
the text: up to it, and from it on, there is something else. -/
def Inside (front : List Char) (c : Char) (back : List Char) : Prop :=
  (∃ x ∈ front ++ [c], isWhiteSpace x = false) ∧ ∃ x ∈ c :: back, isWhiteSpace x = false

theorem trim_eq_rdropWhile (text : List Char) :
    trim text = (text.dropWhile isWhiteSpace).rdropWhile isWhiteSpace :=
  rfl

theorem inside_of_not_isWhiteSpace (visible : isWhiteSpace c = false) :
    Inside front c back :=
  ⟨⟨c, List.mem_append_right _ (List.mem_singleton_self c), visible⟩,
    ⟨c, List.mem_cons_self, visible⟩⟩

theorem Inside.trim_eq (inside : Inside front c back) :
    trim (front ++ c :: back) =
      front.dropWhile isWhiteSpace ++ c :: back.rdropWhile isWhiteSpace := by
  obtain ⟨upTo, onward⟩ := inside
  rw [trim_eq_rdropWhile, dropWhile_append_cons upTo, rdropWhile_append_cons onward]

theorem trim_infix (text : List Char) : trim text <:+: text := by
  rw [trim_eq_rdropWhile]
  apply (List.rdropWhile_prefix _ _).isInfix.trans
  exact (List.dropWhile_suffix _).isInfix

/-- Nothing of a trimmed text is in the white space at its ends. -/
theorem inside_of_trim_eq (trimEq : trim text = front ++ c :: back) :
    Inside front c back := by
  have upTo : front ++ [c] <+: text.dropWhile isWhiteSpace := by
    have ofTrimmed : front ++ [c] <+: trim text := by
      rw [trimEq]
      exact ⟨back, (List.append_cons front c back).symm⟩
    exact ofTrimmed.trans (List.rdropWhile_prefix _ _)
  have onward : (c :: back).reverse <+:
      (text.dropWhile isWhiteSpace).reverse.dropWhile isWhiteSpace := by
    rw [trim, List.reverse_eq_iff] at trimEq
    rw [trimEq, List.reverse_append]
    exact List.prefix_append _ _
  refine ⟨exists_of_prefix_dropWhile upTo (by simp), ?_⟩
  obtain ⟨x, member, visible⟩ := exists_of_prefix_dropWhile onward (by simp)
  exact ⟨x, List.mem_reverse.1 member, visible⟩

theorem mem_trim_iff :
    c ∈ trim text ↔ ∃ front back, text = front ++ c :: back ∧ Inside front c back := by
  constructor
  · intro member
    obtain ⟨before, after, trimEq⟩ := List.append_of_mem member
    obtain ⟨lead, trail, whole⟩ := trim_infix text
    obtain ⟨⟨x, upTo, visible⟩, y, onward, alsoVisible⟩ := inside_of_trim_eq trimEq
    refine ⟨lead ++ before, after ++ trail, ?_, ⟨x, ?_, visible⟩, y, ?_, alsoVisible⟩
    · rw [← whole, trimEq]
      simp
    · rw [List.append_assoc]
      exact List.mem_append_right lead upTo
    · exact List.mem_append_left trail onward
  · rintro ⟨front, back, rfl, inside⟩
    rw [inside.trim_eq]
    exact List.mem_append_right _ List.mem_cons_self

end Trim

/-! ## The character that a report is about -/

/-- The character at which what a cause complains about starts. -/
def Cause.firstCharacter : Cause → Char
  | unexpectedCharacter character => character
  | unterminatedString _ => quote

theorem Segment.head?_text {piece : Segment} {cause : Cause}
    (isCause : piece.cause? = some cause) :
    piece.text.head? = some cause.firstCharacter := by
  cases piece with
  | stray character =>
      cases isCause
      rfl
  | openString contents =>
      cases isCause
      rfl
  | lexeme found => cases isCause
  | space character => cases isCause
  | comment remark => cases isCause

namespace Placement

variable {place : Placement} {cause : Cause}

theorem exists_shown_of_cause? (wellFormed : place.piece.WellFormed)
    (isCause : place.piece.cause? = some cause) :
    ∃ back, place.shown = cause.firstCharacter :: back := by
  obtain ⟨c, others, back, textEq, shownEq⟩ :=
    exists_shown wellFormed (Segment.not_isSilent_of_cause? isCause)
  have head := Segment.head?_text isCause
  rw [textEq] at head
  cases head
  exact ⟨back, shownEq⟩

/-- How the report of a diagnostic shows the line in which its segment starts: the
segment's first character stands in that line between what is there before the segment
and `back`, and the report has the line without the white space at its ends. -/
structure Snippet (place : Placement) (source : String) (diagnostic : Diagnostic)
    (line back : List Char) : Prop where
  starts : place.piece.text.head? = some diagnostic.cause.firstCharacter
  line_eq : line = lineTail place.before ++ diagnostic.cause.firstCharacter :: back
  found : line? source.toList diagnostic.position.line.toNat = some line
  rows : Report.rows diagnostic source =
    Report.framed diagnostic.cause diagnostic.position.line.toNat diagnostic.position.file
      (String.ofList (trim line))

theorem exists_snippet {source : String} {label : String} {diagnostic : Diagnostic}
    (bounded : source.toList.count lineFeed ≤ UInt32.size - 2)
    (member : place ∈ placements source.toList)
    (isDiagnostic : place.diagnostic? label = some diagnostic) :
    ∃ line back, place.Snippet source diagnostic line back := by
  obtain ⟨cause, isCause, rfl⟩ := Option.map_eq_some_iff.1 isDiagnostic
  have wellFormed := (longest_of_mem_placements member).wellFormed
  obtain ⟨back, shownEq⟩ := exists_shown_of_cause? wellFormed isCause
  have found := line?_lineNumber member (Segment.not_isSilent_of_cause? isCause)
  rw [← toNat_line bounded member, shownEq] at found
  exact ⟨_, back, Segment.head?_text isCause, rfl, found, Report.rows_of_line? found⟩

end Placement

/-! ## The reports of a scan -/

/-- The report of each diagnostic has the line in which what it complains about starts.
The first character of that is in the line's row exactly if it stands inside the line
somewhere. So a character other than white space is always there, as is the quote of an
open string. -/
theorem tokenize_snippets (source : String) (file : Option String)
    (bounded : source.toList.count lineFeed ≤ UInt32.size - 2) :
    (tokenize source file).diagnostics =
      (placements source.toList).filterMap
        (Placement.diagnostic? (file.getD defaultLabel)) ∧
    (∀ place ∈ placements source.toList,
      place.before ++ (place.piece.text ++ place.after) = source.toList) ∧
    ∀ place ∈ placements source.toList, ∀ diagnostic : Diagnostic,
      place.diagnostic? (file.getD defaultLabel) = some diagnostic →
        ∃ line back, place.Snippet source diagnostic line back ∧
          (Inside (lineTail place.before) diagnostic.cause.firstCharacter back →
            trim line = (lineTail place.before).dropWhile isWhiteSpace ++
              diagnostic.cause.firstCharacter :: back.rdropWhile isWhiteSpace) ∧
          (diagnostic.cause.firstCharacter ∈ trim line ↔
            ∃ before after,
              line = before ++ diagnostic.cause.firstCharacter :: after ∧
              Inside before diagnostic.cause.firstCharacter after) ∧
          (isWhiteSpace diagnostic.cause.firstCharacter = false →
            diagnostic.cause.firstCharacter ∈ trim line) ∧
          ∀ contents, diagnostic.cause = .unterminatedString contents →
            quote ∈ trim line := by
  refine ⟨diagnostics_tokenize source file, ?_, ?_⟩
  · intro place member
    exact before_append_of_mem_placements member
  · intro place member diagnostic isDiagnostic
    obtain ⟨line, back, snippet⟩ := Placement.exists_snippet bounded member isDiagnostic
    have visible : isWhiteSpace diagnostic.cause.firstCharacter = false →
        diagnostic.cause.firstCharacter ∈ trim line := by
      intro notBlank
      exact mem_trim_iff.2 ⟨_, back, snippet.line_eq, inside_of_not_isWhiteSpace notBlank⟩
    refine ⟨line, back, snippet, ?_, mem_trim_iff, visible, ?_⟩
    · intro inside
      rw [snippet.line_eq, inside.trim_eq]
    · intro contents isOpen
      rw [isOpen] at visible
      exact visible rfl

/-- A character at the end of its line that is white space, but no blank of a scan. The
row of its report does not have it. -/
theorem no_break_space_missing_at_end :
    "print 1;\u00a0".toList.count lineFeed ≤ UInt32.size - 2 ∧
    (tokenize "print 1;\u00a0" none).diagnostics =
      [⟨.unexpectedCharacter '\u00a0', ⟨1, defaultLabel⟩⟩] ∧
    Report.rows ⟨.unexpectedCharacter '\u00a0', ⟨1, defaultLabel⟩⟩ "print 1;\u00a0" =
      Report.framed (.unexpectedCharacter '\u00a0') 1 defaultLabel "print 1;" ∧
    ¬ ∀ diagnostic ∈ (tokenize "print 1;\u00a0" none).diagnostics,
      ∃ line,
        line? "print 1;\u00a0".toList diagnostic.position.line.toNat = some line ∧
        diagnostic.cause.firstCharacter ∈ trim line := by
  have diagnosticsEq : (tokenize "print 1;\u00a0" none).diagnostics =
      [⟨.unexpectedCharacter '\u00a0', ⟨1, defaultLabel⟩⟩] := by
    decide +kernel
  refine ⟨by decide, diagnosticsEq, by decide +kernel, ?_⟩
  intro shown
  rw [diagnosticsEq] at shown
  obtain ⟨line, found, member⟩ := shown _ (List.mem_singleton_self _)
  have lineEq : line? "print 1;\u00a0".toList 1 = some "print 1;\u00a0".toList := by
    decide +kernel
  have same : "print 1;\u00a0".toList = line := Option.some.inj (lineEq.symm.trans found)
  rw [← same] at member
  revert member
  decide

theorem snippets_around_white_space :
    let source := "a\u00a0b\u3000\n \"s"
    let row := ['a', '\u00a0', 'b', '\u3000']
    let opened : Placement :=
      ⟨['a', '\u00a0', 'b', '\u3000', '\n', ' '], .openString ['s'], []⟩
    source.toList.count lineFeed ≤ UInt32.size - 2 ∧
    (tokenize source none).diagnostics =
      [⟨.unexpectedCharacter '\u00a0', ⟨1, defaultLabel⟩⟩,
        ⟨.unexpectedCharacter '\u3000', ⟨1, defaultLabel⟩⟩,
        ⟨.unterminatedString "s", ⟨2, defaultLabel⟩⟩] ∧
    opened ∈ placements source.toList ∧
    line? source.toList 1 = some row ∧
    '\u00a0' ∈ trim row ∧ '\u3000' ∉ trim row ∧
    line? source.toList 2 = some [' ', '"', 's'] ∧ quote ∈ trim [' ', '"', 's'] := by
  intro source row opened
  have bounded : source.toList.count lineFeed ≤ UInt32.size - 2 := by decide
  have pieces : segments source.toList =
      [.lexeme (.word ['a']), .stray '\u00a0', .lexeme (.word ['b']), .stray '\u3000',
        .space '\n', .space ' ', .openString ['s']] := by
    decide +kernel
  have member : opened ∈ placements source.toList := by
    rw [placements, pieces]
    simp [placementsFrom, opened, Segment.text, Lexeme.text]
  have second : line? source.toList 2 = some [' ', '"', 's'] := by decide +kernel
  obtain ⟨diagnostics, -, shown⟩ := tokenize_snippets source none bounded
  obtain ⟨line, back, snippet, -, -, -, quotation⟩ := shown opened member _ rfl
  have same : [' ', '"', 's'] = line := Option.some.inj (second.symm.trans snippet.found)
  have opening : quote ∈ trim line := quotation _ rfl
  rw [← same] at opening
  refine ⟨bounded, ?_, member, by decide +kernel, by decide, by decide, second, opening⟩
  rw [diagnostics, placements, pieces]
  rfl

end LoxScanner
