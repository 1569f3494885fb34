import LoxScanner.Proofs.ShownLines

/-!
# What a tip quotes of an open string

The tip for a string left open quotes the first line of what follows its quote, and the line
in which the string starts shows the same from its quote on. The two are cut by different
rules. A tip leaves out a carriage return only together with the line feed behind it, a line
leaves out the one at its end, also where the text ends. So they differ by one carriage return
if the string ends in it on its first line, and agree on every other string.
-/

namespace LoxScanner

/-! ## Two ways to cut the first line -/

section FirstLine

variable {text line rest : List Char}

/-- A text and the line with which it starts: the text has no line feed, or the line's ending,
a line feed with the carriage return before it, if there is one, comes next. -/
inductive StartsWithLine : List Char → List Char → Prop
  | whole {line : List Char} (absent : lineFeed ∉ line) : StartsWithLine line line
  | ended {line rest : List Char} (absent : lineFeed ∉ line)
      (noReturn : line.getLast? ≠ some carriageReturn) :
      StartsWithLine (line ++ lineFeed :: rest) line
  | endedByReturn {line rest : List Char} (absent : lineFeed ∉ line) :
      StartsWithLine (line ++ carriageReturn :: lineFeed :: rest) line

theorem firstLine_of_not_mem (absent : lineFeed ∉ text) : firstLine text = text := by
  rw [firstLine, if_neg absent, takeWhile_of_not_mem absent]

theorem startsWithLine_firstLine (text : List Char) : StartsWithLine text (firstLine text) := by
  by_cases feeds : lineFeed ∈ text
  · obtain ⟨line, rest, rfl, absent⟩ := List.eq_append_cons_of_mem feeds
    rw [firstLine_line_append absent]
    by_cases ends : line.getLast? = some carriageReturn
    · obtain ⟨kept, rfl⟩ := List.getLast?_eq_some_iff.1 ends
      rw [dropReturn_append_return, List.append_assoc]
      exact .endedByReturn fun member => absent (List.mem_append_left _ member)
    · rw [dropReturn_of_getLast? ends]
      exact .ended absent ends
  · rw [firstLine_of_not_mem feeds]
    exact .whole feeds

theorem StartsWithLine.firstLine_eq (starts : StartsWithLine text line) :
    firstLine text = line := by
  cases starts with
  | whole absent => exact firstLine_of_not_mem absent
  | ended absent noReturn =>
      rw [firstLine_line_append absent, dropReturn_of_getLast? noReturn]
  | endedByReturn absent =>
      rw [List.append_cons, firstLine_line_append (lineFeed_not_mem_append_return absent),
        dropReturn_append_return]

theorem firstLine_eq_iff : firstLine text = line ↔ StartsWithLine text line := by
  constructor
  · rintro rfl
    exact startsWithLine_firstLine text
  · exact StartsWithLine.firstLine_eq

theorem line?_one (text : List Char) :
    line? text 1 = some (dropReturn (text.takeWhile (· ≠ lineFeed))) := by
  rw [line?, getElem?_zero_splitOn]
  rfl

theorem line?_one_of_mem (feeds : lineFeed ∈ text) : line? text 1 = some (firstLine text) := by
  rw [line?_one, firstLine, if_pos feeds]

theorem line?_one_of_not_mem (absent : lineFeed ∉ text) :
    line? text 1 = some (dropReturn text) := by
  rw [line?_one, takeWhile_of_not_mem absent]

/-- A text of one line that ends in a carriage return, with no line feed behind it. -/
def EndsInLoneReturn (text : List Char) : Prop :=
  lineFeed ∉ text ∧ text.getLast? = some carriageReturn

theorem EndsInLoneReturn.firstLine_eq (ends : EndsInLoneReturn text)
    (isShown : line? text 1 = some rest) : firstLine text = rest ++ [carriageReturn] := by
  obtain ⟨absent, isLast⟩ := ends
  obtain ⟨kept, rfl⟩ := List.getLast?_eq_some_iff.1 isLast
  rw [line?_one_of_not_mem absent, dropReturn_append_return] at isShown
  cases isShown
  exact firstLine_of_not_mem absent

theorem firstLine_eq_of_not_endsInLoneReturn (other : ¬ EndsInLoneReturn text)
    (isShown : line? text 1 = some rest) : firstLine text = rest := by
  by_cases feeds : lineFeed ∈ text
  · rw [line?_one_of_mem feeds] at isShown
    exact Option.some.inj isShown
  · have noReturn : text.getLast? ≠ some carriageReturn := fun isLast => other ⟨feeds, isLast⟩
    rw [line?_one_of_not_mem feeds, dropReturn_of_getLast? noReturn] at isShown
    rw [firstLine_of_not_mem feeds]
    exact Option.some.inj isShown

/-- What a tip quotes of a text is the text's line with the number one, unless only that line
leaves out a carriage return. -/
theorem firstLine_eq_iff_not_endsInLoneReturn (isShown : line? text 1 = some rest) :
    firstLine text = rest ↔ ¬ EndsInLoneReturn text := by
  constructor
  · intro same ends
    have longer := ends.firstLine_eq isShown
    rw [same] at longer
    have lengths := congrArg List.length longer
    simp at lengths
  · intro other
    exact firstLine_eq_of_not_endsInLoneReturn other isShown

/-- Of two returns before a line feed one is left out. At the end of a text a line leaves one
out as well, and a tip does not. -/
example : line? "\r\r\nb".toList 1 = some (firstLine "\r\r\nb".toList) ∧
    line? "\r\r".toList 1 ≠ some (firstLine "\r\r".toList) := by
  decide

end FirstLine

/-! ## The line of an open string -/

theorem dropReturn_cons {c : Char} (notReturn : c ≠ carriageReturn) (run : List Char) :
    dropReturn (c :: run) = c :: dropReturn run := by
  cases run with
  | nil =>
      apply dropReturn_of_getLast?
      intro isLast
      exact notReturn (Option.some.inj isLast)
  | cons next others => exact dropReturn_append (List.cons_ne_nil next others) [c]

/-- Behind the quote of an open string its line shows the first line of the contents. -/
theorem Placement.exists_shown_of_openString {place : Placement} {contents : List Char}
    (isOpen : place.piece = .openString contents) (atEnd : place.after = []) :
    ∃ rest, place.shown = quote :: rest ∧ line? contents 1 = some rest := by
  have quoteStays : decide (quote ≠ lineFeed) = true := by decide
  refine ⟨_, ?_, line?_one contents⟩
  rw [shown, isOpen, atEnd, List.append_nil, Segment.text, List.takeWhile_cons, if_pos quoteStays,
    dropReturn_cons (by decide)]

theorem Segment.eq_openString_of_cause? {piece : Segment} {contents : String}
    (isCause : piece.cause? = some (.unterminatedString contents)) :
    piece = openString contents.toList := by
  cases piece with
  | openString found =>
      have same : String.ofList found = contents :=
        Cause.unterminatedString.inj (Option.some.inj isCause)
      rw [← same, String.toList_ofList]
  | lexeme found => cases isCause
  | space character => cases isCause
  | comment remark => cases isCause
  | stray character => cases isCause

theorem exists_openString_of_mem_diagnostics {source : String} {file : Option String}
    {diagnostic : Diagnostic} {contents : String}
    (member : diagnostic ∈ (tokenize source file).diagnostics)
    (isOpen : diagnostic.cause = .unterminatedString contents) :
    ∃ place ∈ placements source.toList,
      place.piece = .openString contents.toList ∧ diagnostic.position.line = place.line := by
  rw [diagnostics_tokenize] at member
  obtain ⟨place, placeMember, isDiagnostic⟩ := List.mem_filterMap.1 member
  obtain ⟨cause, isCause, rfl⟩ := Option.map_eq_some_iff.1 isDiagnostic
  have causeEq : cause = .unterminatedString contents := isOpen
  rw [causeEq] at isCause
  exact ⟨place, placeMember, Segment.eq_openString_of_cause? isCause, rfl⟩

/-- The line of an open string is there, and its quote stands in it at the column that the
text before it gives. If nothing follows the quote, the line ends with it, and the tip quotes
nothing. Otherwise the tip quotes the first line of the contents, and this is what the line
shows behind the quote, or, if the contents are one line that ends in a carriage return, that
with the return. -/
theorem tokenize_tip_quotes_line (source : String) (file : Option String)
    (bounded : source.toList.count lineFeed ≤ UInt32.size - 2) :
    ∀ diagnostic ∈ (tokenize source file).diagnostics, ∀ contents,
      diagnostic.cause = .unterminatedString contents →
      ∃ before line rest,
        source.toList = before ++ quote :: contents.toList ∧ quote ∉ contents.toList ∧
        line? source.toList diagnostic.position.line.toNat = some line ∧
        line = lineTail before ++ quote :: rest ∧
        (contents = "" →
          diagnostic.cause.tip = .suggestion "Missing closing `\"`" ∧ rest = []) ∧
        (contents ≠ "" → ∃ quoted,
          (∀ first, StartsWithLine contents.toList first ↔ quoted = first) ∧
          diagnostic.cause.tip =
            .suggestion ("Missing closing `\"` after `" ++ String.ofList quoted ++ "`") ∧
          (quoted = rest ↔ ¬ EndsInLoneReturn contents.toList) ∧
          (EndsInLoneReturn contents.toList → quoted = rest ++ [carriageReturn])) := by
  intro diagnostic member contents isOpen
  obtain ⟨place, placeMember, pieceEq, lineEq⟩ :=
    exists_openString_of_mem_diagnostics member isOpen
  have longest := longest_of_mem_placements placeMember
  have loud : ¬ place.piece.IsSilent := by
    rw [pieceEq]
    exact id
  have found := Placement.line?_lineNumber placeMember loud
  have whole := before_append_of_mem_placements placeMember
  rw [pieceEq] at longest
  -- An open string goes on to the text's end, so its line ends where its first line does.
  have atEnd : place.after = [] := longest.ends
  have noQuote : quote ∉ contents.toList := longest.wellFormed
  obtain ⟨rest, shownEq, isRest⟩ := Placement.exists_shown_of_openString pieceEq atEnd
  rw [shownEq, ← Placement.toNat_line bounded placeMember, ← lineEq] at found
  rw [pieceEq, atEnd, List.append_nil, Segment.text] at whole
  refine ⟨place.before, _, rest, whole.symm, noQuote, found, rfl, ?_, ?_⟩
  · rintro rfl
    rw [isOpen]
    exact ⟨rfl, (Option.some.inj isRest).symm⟩
  · intro notEmpty
    refine ⟨firstLine contents.toList, fun first => firstLine_eq_iff.symm, ?_,
      firstLine_eq_iff_not_endsInLoneReturn isRest, fun ends => ends.firstLine_eq isRest⟩
    rw [isOpen, Cause.tip, if_neg notEmpty]

/-- A string that ends in a carriage return, behind another diagnostic on the same line. -/
theorem tip_keeps_return_at_end :
    let source := "x\r\n@ \"a\r"
    let report : Diagnostic := ⟨.unterminatedString "a\r", ⟨2, "shell"⟩⟩
    source.toList.count lineFeed ≤ UInt32.size - 2 ∧
    report ∈ (tokenize source none).diagnostics ∧
    "a\r" ≠ "" ∧ EndsInLoneReturn "a\r".toList ∧
    ∃ quoted rest,
      line? source.toList 2 = some ("@ ".toList ++ quote :: rest) ∧
      StartsWithLine "a\r".toList quoted ∧
      report.cause.tip =
        .suggestion ("Missing closing `\"` after `" ++ String.ofList quoted ++ "`") ∧
      quoted ≠ rest ∧ quoted = rest ++ [carriageReturn] := by
  intro source report
  have bounded : source.toList.count lineFeed ≤ UInt32.size - 2 := by decide
  have found : (tokenize source none).diagnostics =
      [⟨.unexpectedCharacter '@', ⟨2, "shell"⟩⟩, report] := by
    decide +kernel
  have member : report ∈ (tokenize source none).diagnostics := by simp [found]
  have notEmpty : "a\r" ≠ "" := by decide
  have ends : EndsInLoneReturn "a\r".toList := ⟨by decide, by decide⟩
  obtain ⟨before, line, rest, whole, -, isLine, rfl, -, quotes⟩ :=
    tokenize_tip_quotes_line source none bounded report member "a\r" rfl
  obtain ⟨quoted, starts, tipEq, same, longer⟩ := quotes notEmpty
  have split : source.toList = "x\r\n@ ".toList ++ quote :: "a\r".toList := by decide
  have beforeEq : "x\r\n@ ".toList = before :=
    List.append_cancel_right (split.symm.trans whole)
  have column : lineTail before = "@ ".toList := by
    rw [← beforeEq]
    decide
  rw [column] at isLine
  exact ⟨bounded, member, notEmpty, ends, quoted, rest, isLine, (starts quoted).2 rfl, tipEq,
    fun isSame => same.1 isSame ends, longer ends⟩

end LoxScanner
