import LoxScanner.Proofs.Snippets

/-!
# The layout of a report

A report quotes a character, the contents of an open string and a line of a text. None of
them can break its rows: a character is escaped, of the contents the first line is quoted,
and a line has no line feed. So the rows of a report, and where its bars stand, are known
whatever it is about.
-/

namespace LoxScanner

/-! ## What is free of line feeds -/

theorem not_mem_toDigits {base : Nat} {mark : Char} (large : 1 < base)
    (noDigit : ∀ digit < base, digit.digitChar ≠ mark) (number : Nat) :
    mark ∉ Nat.toDigits base number := by
  induction number using Nat.strongRecOn with
  | ind number ih =>
      by_cases single : number < base
      · rw [Nat.toDigits_of_lt_base single, List.mem_singleton]
        exact (noDigit number single).symm
      · have atLeast : base ≤ number := Nat.not_lt.1 single
        have smaller : number / base < number := Nat.div_lt_self (by omega) large
        have lastBelow : number % base < base := Nat.mod_lt number (by omega)
        rw [Nat.toDigits_of_base_le large atLeast, List.mem_append, List.mem_singleton]
        rintro (earlier | last)
        · exact ih (number / base) smaller earlier
        · exact noDigit (number % base) lastBelow last.symm

theorem lineFeed_not_mem_toString (number : Nat) : lineFeed ∉ (toString number).toList := by
  rw [Nat.toString_eq_repr, Nat.toList_repr]
  exact not_mem_toDigits (by decide) (by decide) number

theorem lineFeed_not_mem_codePointEscape (c : Char) : lineFeed ∉ codePointEscape c := by
  have noDigit : lineFeed ∉ Nat.toDigits 16 c.toNat :=
    not_mem_toDigits (by decide) (by decide) c.toNat
  rw [codePointEscape, List.mem_append, List.mem_append]
  rintro ((opening | digits) | closing)
  · revert opening
    decide
  · exact noDigit digits
  · revert closing
    decide

/-- A style that has a short escape for the line feed never writes one. -/
theorem EscapeStyle.lineFeed_not_mem_escape {style : EscapeStyle}
    (escaped : lineFeed ∈ style.short.map Prod.fst)
    (letters : lineFeed ∉ style.short.map Prod.snd) (c : Char) :
    lineFeed ∉ style.escape c := by
  unfold escape
  split
  next letter found =>
    obtain ⟨before, after, shortEq, -⟩ := List.lookup_eq_some_iff.1 found
    have isLetter : letter ∈ style.short.map Prod.snd := by
      rw [shortEq, List.map_append, List.map_cons]
      exact List.mem_append_right _ List.mem_cons_self
    have notBackslash : lineFeed ≠ '\\' := by decide
    have different : lineFeed ≠ letter := fun same => letters (same ▸ isLetter)
    simp only [List.mem_cons, notBackslash, different, List.not_mem_nil, or_self,
      not_false_eq_true]
  next unlisted =>
    split
    · intro member
      rw [← List.mem_singleton.1 member, List.lookup_eq_none_iff] at unlisted
      obtain ⟨pair, isPair, fstEq⟩ := List.mem_map.1 escaped
      simpa [fstEq] using unlisted pair isPair
    · exact lineFeed_not_mem_codePointEscape c

theorem lineFeed_not_mem_splitOn {text piece : List Char}
    (isPiece : piece ∈ text.splitOn lineFeed) : lineFeed ∉ piece := by
  induction text using lines_induction lineFeed with
  | last line absent =>
      rw [List.splitOn_eq_singleton absent, List.mem_singleton] at isPiece
      rw [isPiece]
      exact absent
  | step line rest absent ih =>
      rw [List.splitOn_append_cons_self_of_not_mem absent, List.mem_cons] at isPiece
      rcases isPiece with rfl | later
      · exact absent
      · exact ih later

theorem lineFeed_not_mem_line? {text line : List Char} {number : Nat}
    (found : line? text number = some line) : lineFeed ∉ line := by
  cases number with
  | zero => cases found
  | succ index =>
      obtain ⟨piece, isPiece, rfl⟩ := Option.map_eq_some_iff.1 found
      intro member
      exact lineFeed_not_mem_splitOn (List.mem_of_getElem? isPiece) (mem_of_mem_dropAtEnd member)

theorem lineFeed_not_mem_firstLine (text : List Char) : lineFeed ∉ firstLine text := by
  have absent := not_mem_takeWhile_ne lineFeed text
  unfold firstLine
  dsimp only
  split_ifs
  · intro member
    exact absent (mem_of_mem_dropAtEnd member)
  · exact absent

namespace Cause

theorem lineFeed_not_mem_name (cause : Cause) : lineFeed ∉ cause.name.toList := by
  cases cause with
  | unexpectedCharacter character =>
      show lineFeed ∉ "UnexpectedCharacter".toList
      decide
  | unterminatedString contents =>
      show lineFeed ∉ "UnterminatedString".toList
      decide

theorem lineFeed_not_mem_message (cause : Cause) : lineFeed ∉ cause.message.toList := by
  cases cause with
  | unexpectedCharacter character =>
      have escaped : lineFeed ∉ messageStyle.escape character :=
        EscapeStyle.lineFeed_not_mem_escape (by decide) (by decide) character
      have start : lineFeed ∉ "unexpected character '".toList := by decide
      have close : lineFeed ∉ "'".toList := by decide
      have messageEq : (unexpectedCharacter character).message =
          "unexpected character '" ++ String.ofList (messageStyle.escape character) ++ "'" := rfl
      simp only [messageEq, String.toList_append, String.toList_ofList, List.mem_append, not_or]
      exact ⟨⟨start, escaped⟩, close⟩
  | unterminatedString contents =>
      show lineFeed ∉ "unterminated string".toList
      decide

/-- Every cause has a tip with words on one row. -/
theorem exists_tip (cause : Cause) :
    ∃ words, cause.tip = .suggestion words ∧ words ≠ "" ∧ lineFeed ∉ words.toList := by
  have tick : lineFeed ∉ "`".toList := by decide
  cases cause with
  | unexpectedCharacter character =>
      have escaped : lineFeed ∉ tipStyle.escape character :=
        EscapeStyle.lineFeed_not_mem_escape (by decide) (by decide) character
      have start : lineFeed ∉ "Unexpected character `".toList := by decide
      refine ⟨_, rfl, ?_, ?_⟩
      · rw [ne_eq, ← String.toList_eq_nil_iff]
        simp
      · simp only [String.toList_append, String.toList_ofList, List.mem_append, not_or]
        exact ⟨⟨start, escaped⟩, tick⟩
  | unterminatedString contents =>
      by_cases isEmpty : contents = ""
      · exact ⟨_, if_pos isEmpty, by decide, by decide⟩
      · have quoted := lineFeed_not_mem_firstLine contents.toList
        have start : lineFeed ∉ "Missing closing `\"` after `".toList := by decide
        refine ⟨_, if_neg isEmpty, ?_, ?_⟩
        · rw [ne_eq, ← String.toList_eq_nil_iff]
          simp
        · simp only [String.toList_append, String.toList_ofList, List.mem_append, not_or]
          exact ⟨⟨start, quoted⟩, tick⟩

end Cause

theorem Diagnostic.lineFeed_not_mem_display (diagnostic : Diagnostic) :
    lineFeed ∉ diagnostic.display.toList := by
  have start : lineFeed ∉ "[line ".toList := by decide
  have separator : lineFeed ∉ "] Error: ".toList := by decide
  simp only [display, String.toList_append, List.mem_append, not_or]
  exact ⟨⟨⟨start, lineFeed_not_mem_toString _⟩, separator⟩,
    diagnostic.cause.lineFeed_not_mem_message⟩

/-! ## Texts of rows -/

theorem toList_unlines_cons (row : String) (rows : List String) :
    (unlines (row :: rows)).toList = row.toList ++ lineFeed :: (unlines rows).toList := by
  unfold unlines
  rw [String.toList_join, String.toList_join, List.map_cons, List.flatMap_cons,
    String.toList_append, List.append_assoc]
  rfl

theorem count_unlines (rows : List String) :
    (unlines rows).toList.count lineFeed =
      rows.length + (rows.flatMap String.toList).count lineFeed := by
  induction rows with
  | nil => rfl
  | cons row rows ih =>
      rw [toList_unlines_cons, List.count_append, List.count_cons_self, ih, List.length_cons,
        List.flatMap_cons, List.count_append]
      omega

theorem getLast?_unlines_cons (row : String) (rows : List String) :
    (unlines (row :: rows)).toList.getLast? = some lineFeed := by
  induction rows generalizing row with
  | nil =>
      rw [toList_unlines_cons]
      exact List.getLast?_concat
  | cons next rows ih =>
      rw [toList_unlines_cons, List.getLast?_append, List.getLast?_cons, ih next]
      rfl

/-! ## The rows of a report -/

namespace Report

theorem header_of_tip {cause : Cause} {words : String} (isTip : cause.tip = .suggestion words) :
    header cause = "Error: " ++ cause.name ++ " (" ++ words ++ ")" := by
  rw [header, isTip]

theorem lineFeed_not_mem_header (cause : Cause) : lineFeed ∉ (header cause).toList := by
  obtain ⟨words, isTip, -, absent⟩ := cause.exists_tip
  have start : lineFeed ∉ "Error: ".toList := by decide
  have opening : lineFeed ∉ " (".toList := by decide
  have close : lineFeed ∉ ")".toList := by decide
  simp only [header_of_tip isTip, String.toList_append, List.mem_append, not_or]
  exact ⟨⟨⟨⟨start, cause.lineFeed_not_mem_name⟩, opening⟩, absent⟩, close⟩

/-- The first bar of a row stands at a column, counted from zero. -/
def BarAt (column : Nat) (row : String) : Prop :=
  ∃ before after, row.toList = before ++ '|' :: after ∧ '|' ∉ before ∧ before.length = column

theorem barAt_bar (number : Nat) : BarAt ((Nat.toDigits 10 number).length + 1) (bar number) := by
  refine ⟨_, [], String.toList_ofList, ?_, List.length_replicate⟩
  intro member
  have isSpace : '|' = ' ' := List.eq_of_mem_replicate member
  exact absurd isSpace (by decide)

theorem toList_sourceRow (number : Nat) (line : List Char) :
    (sourceRow number line).toList =
      (Nat.toDigits 10 number ++ [' ']) ++ '|' :: ' ' :: trim line := by
  have shown : (String.ofList (trim line)).toList = trim line := String.toList_ofList
  rw [sourceRow, String.toList_append, String.toList_append, shown, Nat.toString_eq_repr,
    Nat.toList_repr, List.append_assoc, List.append_assoc]
  rfl

theorem barAt_sourceRow (number : Nat) (line : List Char) :
    BarAt ((Nat.toDigits 10 number).length + 1) (sourceRow number line) := by
  refine ⟨_, _, toList_sourceRow number line, ?_, List.length_append⟩
  have noDigit : '|' ∉ Nat.toDigits 10 number := not_mem_toDigits (by decide) (by decide) number
  rw [List.mem_append]
  rintro (digits | space)
  · exact noDigit digits
  · revert space
    decide

theorem lineFeed_not_mem_bar (number : Nat) : lineFeed ∉ (bar number).toList := by
  rw [bar, String.toList_ofList, List.mem_append]
  rintro (padding | last)
  · have isSpace : lineFeed = ' ' := List.eq_of_mem_replicate padding
    exact absurd isSpace (by decide)
  · revert last
    decide

theorem lineFeed_not_mem_sourceRow {line : List Char} (absent : lineFeed ∉ line)
    (number : Nat) : lineFeed ∉ (sourceRow number line).toList := by
  have separator : lineFeed ∉ " | ".toList := by decide
  have isPart : trim line <:+: line := trim_infix line
  have shown : lineFeed ∉ trim line := fun member => absent (isPart.subset member)
  simp only [sourceRow, String.toList_append, String.toList_ofList, List.mem_append, not_or]
  exact ⟨⟨lineFeed_not_mem_toString number, separator⟩, shown⟩

theorem count_placeRow (file : String) :
    ("-> " ++ file).toList.count lineFeed = file.toList.count lineFeed := by
  rw [String.toList_append, List.count_append]
  exact Nat.zero_add _

/-- Of the rows of a report only the one with the label may have line feeds. -/
theorem count_unlines_report {title : String} {picture : List String}
    (titleFree : lineFeed ∉ title.toList) (pictureFree : ∀ row ∈ picture, lineFeed ∉ row.toList)
    (file : String) :
    (unlines (title :: ("-> " ++ file) :: picture)).toList.count lineFeed =
      2 + picture.length + file.toList.count lineFeed := by
  have inPicture : lineFeed ∉ picture.flatMap String.toList := by
    intro member
    obtain ⟨row, isRow, inRow⟩ := List.mem_flatMap.1 member
    exact pictureFree row isRow inRow
  rw [count_unlines, List.flatMap_cons, List.flatMap_cons, List.count_append, List.count_append,
    count_placeRow, List.count_eq_zero.2 titleFree, List.count_eq_zero.2 inPicture,
    List.length_cons, List.length_cons]
  omega

end Report

namespace Diagnostic

open Report

/-- A report about a line that the text does not have is two rows, any other is five, and
of the five the bars stand at one column. Neither these rows nor the diagnostic on its own
row can be broken by what they quote: only the label of the text may bring a line feed. -/
theorem render_layout (diagnostic : Diagnostic) (source : String) :
    lineFeed ∉ diagnostic.display.toList ∧
    lineFeed ∉ (header diagnostic.cause).toList ∧
    (∃ words, words ≠ "" ∧ diagnostic.cause.tip = .suggestion words ∧
      header diagnostic.cause = "Error: " ++ diagnostic.cause.name ++ " (" ++ words ++ ")") ∧
    (line? source.toList diagnostic.position.line.toNat = none →
      diagnostic.render source =
        unlines [header diagnostic.cause, "-> " ++ diagnostic.position.file] ∧
      (diagnostic.render source).toList.count lineFeed =
        2 + diagnostic.position.file.toList.count lineFeed) ∧
    (∀ line, line? source.toList diagnostic.position.line.toNat = some line →
      ∃ column bar row, column = (Nat.toDigits 10 diagnostic.position.line.toNat).length + 1 ∧
        bar = String.ofList (List.replicate column ' ' ++ ['|']) ∧
        row = toString diagnostic.position.line.toNat ++ " | " ++ String.ofList (trim line) ∧
        diagnostic.render source =
          unlines [header diagnostic.cause, "-> " ++ diagnostic.position.file, bar, row, bar] ∧
        BarAt column bar ∧ BarAt column row ∧
        lineFeed ∉ bar.toList ∧ lineFeed ∉ row.toList ∧
        (diagnostic.render source).toList.count lineFeed =
          5 + diagnostic.position.file.toList.count lineFeed) ∧
    (diagnostic.render source).toList.getLast? = some lineFeed := by
  refine ⟨diagnostic.lineFeed_not_mem_display, lineFeed_not_mem_header diagnostic.cause,
    ?_, ?_, ?_, ?_⟩
  · obtain ⟨words, isTip, notEmpty, -⟩ := diagnostic.cause.exists_tip
    exact ⟨words, notEmpty, isTip, header_of_tip isTip⟩
  · intro noLine
    have rendered : diagnostic.render source =
        unlines [header diagnostic.cause, "-> " ++ diagnostic.position.file] := by
      rw [render, rows, noLine]
      rfl
    refine ⟨rendered, ?_⟩
    rw [rendered]
    apply count_unlines_report (lineFeed_not_mem_header diagnostic.cause)
    intro row member
    cases member
  · intro line found
    have rendered := congrArg unlines (rows_of_line? found)
    have barFree := lineFeed_not_mem_bar diagnostic.position.line.toNat
    have rowFree := lineFeed_not_mem_sourceRow (lineFeed_not_mem_line? found)
      diagnostic.position.line.toNat
    refine ⟨_, _, _, rfl, rfl, rfl, rendered, barAt_bar _, barAt_sourceRow _ line, barFree,
      rowFree, ?_⟩
    rw [render, rendered]
    apply count_unlines_report (lineFeed_not_mem_header diagnostic.cause)
    exact List.forall_mem_cons.2 ⟨barFree, List.forall_mem_cons.2
      ⟨rowFree, List.forall_mem_singleton.2 barFree⟩⟩
  · exact getLast?_unlines_cons _ _

/-- A report about an open string, in which the label alone adds a line feed to the five. -/
theorem render_open_string_of_two_lines :
    line? "x\n| y \r\nz".toList 2 = some "| y ".toList ∧
    Diagnostic.render ⟨.unterminatedString "a\r\nb|", ⟨2, "m\nx"⟩⟩ "x\n| y \r\nz" =
      "Error: UnterminatedString (Missing closing `\"` after `a`)\n-> m\nx\n  |\n2 | | y\n  |\n" ∧
    (Diagnostic.render ⟨.unterminatedString "a\r\nb|", ⟨2, "m\nx"⟩⟩
      "x\n| y \r\nz").toList.count lineFeed = 6 := by
  have found : line? "x\n| y \r\nz".toList 2 = some "| y ".toList := by decide
  obtain ⟨-, -, -, -, ofLine, -⟩ :=
    render_layout ⟨.unterminatedString "a\r\nb|", ⟨2, "m\nx"⟩⟩ "x\n| y \r\nz"
  obtain ⟨column, bar, row, rfl, rfl, rfl, rendered, -, -, -, -, counted⟩ :=
    ofLine "| y ".toList found
  refine ⟨found, ?_, counted⟩
  rw [rendered]
  decide

end Diagnostic

end LoxScanner
