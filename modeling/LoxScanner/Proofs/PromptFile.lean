import LoxScanner.Console.Command
import LoxScanner.Proofs.LineByLine

/-!
# A prompt and a file with the same text

A session at the prompt scans the lines of its input one by one. If no line leaves a
string open, the file that holds the same text has the tokens and the diagnostics of
the session, on the lines they come from, and shows the same words in its reports.
-/

namespace LoxScanner

/-! ## Sessions -/

namespace Written

theorem append_eq (before after : Written) :
    before ++ after =
      ⟨before.output ++ after.output, before.errors ++ after.errors⟩ :=
  rfl

theorem nothing_append (after : Written) : nothing ++ after = after := by
  rw [append_eq, nothing, String.empty_append, String.empty_append]

end Written

namespace Prompt

theorem reply_encode (text : String) :
    reply (encode text.toList) = .ok ((tokenize text none).written text) := by
  rw [reply, decodeText_encode_toList]
  rfl

/-- What a session has written when it has read some texts and found nothing wrong with
their bytes. -/
def answers (texts : List String) : Written where
  output := String.join (texts.map fun text => mark ++ (tokenize text none).listing)
  errors := String.join (texts.map fun text => (tokenize text none).complaints text)

/-- What a session writes that reads texts one by one, and then finds no more lines. -/
def transcript (texts : List String) : Written :=
  answers texts ++ ⟨mark ++ "\n", ""⟩

theorem answers_cons (before : Written) (text : String) (texts : List String) :
    before ++ ⟨mark, ""⟩ ++ (tokenize text none).written text ++ answers texts =
      before ++ answers (text :: texts) := by
  simp only [Written.append_eq, answers, Scan.written, List.map_cons, String.join_cons,
    String.append_assoc, String.empty_append]

theorem append_answers_nil (before : Written) : before ++ answers [] = before := by
  simp [Written.append_eq, answers]

/-- A session answers the texts among its lines and goes on with the lines after them. -/
theorem resume_append (before : Written) (texts : List String)
    (others : List (List UInt8)) :
    resume before ((texts.map fun text => encode text.toList) ++ others) =
      resume (before ++ answers texts) others := by
  induction texts generalizing before with
  | nil => rw [List.map_nil, List.nil_append, append_answers_nil]
  | cons text texts ih =>
      rw [List.map_cons, List.cons_append, resume, reply_encode]
      dsimp only
      rw [ih, answers_cons]

theorem session_append {input : List UInt8} {texts : List String}
    {others : List (List UInt8)}
    (linesEq : lines input = (texts.map fun text => encode text.toList) ++ others) :
    session input = resume (answers texts) others := by
  rw [session, linesEq, resume_append, Written.nothing_append]

/-- A session reads the bytes of a text to the end, and scans the text's lines. -/
theorem session_eq {bytes : List UInt8} {source : String}
    (decoded : decodeText bytes = .ok source) :
    session bytes = ⟨transcript (texts source), .success⟩ := by
  have linesEq : lines bytes =
      ((texts source).map fun text => encode text.toList) ++ [] := by
    rw [eq_encode_of_decodeText decoded, lines_encode, List.append_nil, texts, List.map_map]
    simp only [Function.comp_def, String.toList_ofList]
  rw [session_append linesEq, resume, transcript]

end Prompt

theorem Command.run_file {read : String → Except ReadFailure (List UInt8)}
    {input bytes : List UInt8} {path source : String} (contents : read path = .ok bytes)
    (decoded : decodeText bytes = .ok source) :
    run read input (.file path) =
      ⟨(tokenize source (some (Path.label path))).written source,
        if (tokenize source (some (Path.label path))).diagnostics = [] then .success
        else .badData⟩ := by
  have readAsText : (Except.ok bytes >>= decodeText) = .ok source := decoded
  rw [run, contents, scanFile, readAsText]

/-! ## Reports -/

theorem trim_append_return (line : List Char) :
    trim (line ++ [carriageReturn]) = trim line := by
  have blank : isWhiteSpace carriageReturn = true := isWhiteSpace_of_isWhitespace rfl
  rw [trim, trim, List.dropWhile_append]
  by_cases allBlank : (line.dropWhile isWhiteSpace).isEmpty = true
  · have nothingLeft : line.dropWhile isWhiteSpace = [] := List.isEmpty_iff.1 allBlank
    rw [if_pos allBlank, nothingLeft, List.dropWhile_cons_of_pos blank]
    rfl
  · rw [if_neg allBlank, List.reverse_append, List.reverse_singleton,
      List.singleton_append, List.dropWhile_cons_of_pos blank]

theorem trim_dropReturn (line : List Char) : trim (dropReturn line) = trim line := by
  rcases dropAtEnd_cases carriageReturn line with ends | same
  · rw [dropReturn, ← trim_append_return, ← ends]
  · rw [dropReturn, same]

namespace Report

/-- The rows of a report about a line of which `snippet` is shown. -/
def framed (cause : Cause) (number : Nat) (label snippet : String) : List String :=
  [header cause, "-> " ++ label, bar number, toString number ++ " | " ++ snippet,
    bar number]

theorem rows_of_line? {diagnostic : Diagnostic} {source : String} {line : List Char}
    (found : line? source.toList diagnostic.position.line.toNat = some line) :
    rows diagnostic source =
      framed diagnostic.cause diagnostic.position.line.toNat diagnostic.position.file
        (String.ofList (trim line)) := by
  rw [rows, found]
  rfl

theorem rows_eq_framed {diagnostic : Diagnostic} {source : String} {piece : List Char}
    {index : Nat} (isPiece : (source.toList.splitOn lineFeed)[index]? = some piece)
    (lineEq : diagnostic.position.line.toNat = index + 1) :
    rows diagnostic source =
      framed diagnostic.cause (index + 1) diagnostic.position.file
        (String.ofList (trim piece)) := by
  have found : line? source.toList diagnostic.position.line.toNat =
      some (dropReturn piece) := by
    rw [lineEq, line?, isPiece]
    rfl
  rw [rows_of_line? found, trim_dropReturn, lineEq]

end Report

/-! ## The lines of a file -/

/-- What numbered parts of a list give, read back by the number. -/
theorem filter_flatMap_zipIdx {α β : Type} {part : α × Nat → List β} {number : β → Nat}
    {items : List α} {first : Nat}
    (numbered : ∀ pair ∈ items.zipIdx first, ∀ found ∈ part pair,
      number found = pair.2 + 1)
    {index : Nat} {item : α} (isItem : items[index]? = some item) :
    ((items.zipIdx first).flatMap part).filter (number · = first + index + 1) =
      part (item, first + index) := by
  induction items generalizing first index with
  | nil => cases isItem
  | cons head others ih =>
      rw [List.zipIdx_cons, List.forall_mem_cons] at numbered
      obtain ⟨headNumbered, othersNumbered⟩ := numbered
      rw [List.zipIdx_cons, List.flatMap_cons, List.filter_append]
      cases index with
      | zero =>
          have same : head = item := Option.some.inj isItem
          have kept : (part (head, first)).filter (number · = first + 0 + 1) =
              part (head, first) := by
            apply List.filter_eq_self.2
            intro found member
            simpa using headNumbered found member
          have dropped : ((others.zipIdx (first + 1)).flatMap part).filter
              (number · = first + 0 + 1) = [] := by
            apply List.filter_eq_nil_iff.2
            intro found member
            obtain ⟨pair, pairMember, foundMember⟩ := List.mem_flatMap.1 member
            have later := List.le_snd_of_mem_zipIdx pairMember
            have isNumber := othersNumbered pair pairMember found foundMember
            simp only [decide_eq_true_eq]
            omega
          rw [kept, dropped, List.append_nil, same]
          rfl
      | succ index =>
          have dropped :
              (part (head, first)).filter (number · = first + (index + 1) + 1) = [] := by
            apply List.filter_eq_nil_iff.2
            intro found member
            have isNumber := headNumbered found member
            simp only [decide_eq_true_eq]
            omega
          have shifted : first + (index + 1) = first + 1 + index := by omega
          have isLater : others[index]? = some item := isItem
          rw [dropped, List.nil_append, shifted]
          exact ih othersNumbered isLater

section Texts

variable {source text : String} {index : Nat}

theorem exists_piece_of_getElem?_texts (isText : (Prompt.texts source)[index]? = some text) :
    ∃ piece, (source.toList.splitOn lineFeed)[index]? = some piece ∧
      lineFeed ∉ text.toList ∧ index ≤ source.toList.count lineFeed ∧
      (text.toList = piece ∨ text.toList = dropReturn piece) := by
  rw [Prompt.texts, List.getElem?_map] at isText
  obtain ⟨line, isLine, rfl⟩ := Option.map_eq_some_iff.1 isText
  obtain ⟨piece, isPiece, _, indexLe, lineEq⟩ := exists_piece_of_getElem?_linesOf isLine
  have oneLine := not_mem_of_mem_linesOf (List.mem_of_getElem? isLine)
  rw [String.toList_ofList]
  exact ⟨piece, isPiece, oneLine, indexLe, lineEq⟩

theorem toNat_line_of_getElem?_texts
    (bounded : source.toList.count lineFeed ≤ UInt32.size - 2)
    (isText : (Prompt.texts source)[index]? = some text) :
    (UInt32.ofNat (index + 1)).toNat = index + 1 := by
  obtain ⟨_, _, _, indexLe, _⟩ := exists_piece_of_getElem?_texts isText
  have size : UInt32.size = 4294967296 := rfl
  rw [UInt32.toNat_ofNat']
  omega

theorem flatMap_content_texts (file : Option String)
    (closed : ∀ piece ∈ source.toList.splitOn lineFeed,
      ∀ found ∈ segments piece, ¬ found.IsOpen) :
    ((Prompt.texts source).flatMap fun text =>
        (tokenize text none).tokens.dropLast.map Token.content) =
      (tokenize source file).tokens.dropLast.map Token.content := by
  rw [tokens_eq_flatMap_texts file closed, List.map_flatMap]
  calc
    ((Prompt.texts source).flatMap fun text =>
          (tokenize text none).tokens.dropLast.map Token.content) =
        (((Prompt.texts source).zipIdx.map Prod.fst).flatMap fun text =>
          (tokenize text none).tokens.dropLast.map Token.content) := by
      rw [List.zipIdx_map_fst]
    _ = ((Prompt.texts source).zipIdx.flatMap fun numbered =>
          (tokenize numbered.1 none).tokens.dropLast.map Token.content) :=
      List.flatMap_map _ _ _
    _ = _ := by
      apply List.flatMap_congr
      intro numbered _
      rw [List.map_map]
      rfl

/-- The tokens on a line of the file are those of the text that the prompt scans
there. -/
theorem filter_line_tokens (file : Option String)
    (bounded : source.toList.count lineFeed ≤ UInt32.size - 2)
    (closed : ∀ piece ∈ source.toList.splitOn lineFeed,
      ∀ found ∈ segments piece, ¬ found.IsOpen)
    (isText : (Prompt.texts source)[index]? = some text) :
    (tokenize source file).tokens.dropLast.filter (·.line.toNat = index + 1) =
      (tokenize text none).tokens.dropLast.map
        (Token.onLine (UInt32.ofNat (index + 1))) := by
  have numbered : ∀ pair ∈ (Prompt.texts source).zipIdx,
      ∀ token ∈ (tokenize pair.1 none).tokens.dropLast.map
        (Token.onLine (UInt32.ofNat (pair.2 + 1))), token.line.toNat = pair.2 + 1 := by
    intro pair pairMember token member
    obtain ⟨alone, _, rfl⟩ := List.mem_map.1 member
    exact toNat_line_of_getElem?_texts bounded (List.mem_zipIdx_iff_getElem?.1 pairMember)
  have filtered := filter_flatMap_zipIdx numbered isText
  rw [Nat.zero_add] at filtered
  rw [tokens_eq_flatMap_texts file closed, filtered]

/-- A diagnostic of a text that a prompt scans is about a character on its only
line. -/
theorem of_mem_diagnostics_texts
    (closed : ∀ piece ∈ source.toList.splitOn lineFeed,
      ∀ found ∈ segments piece, ¬ found.IsOpen)
    (isText : (Prompt.texts source)[index]? = some text) {diagnostic : Diagnostic}
    (member : diagnostic ∈ (tokenize text none).diagnostics) :
    diagnostic.position = ⟨1, defaultLabel⟩ ∧
      ∃ character, diagnostic.cause = .unexpectedCharacter character := by
  obtain ⟨piece, isPiece, oneLine, _, lineEq⟩ := exists_piece_of_getElem?_texts isText
  have pieceClosed := closed piece (List.mem_of_getElem? isPiece)
  have textClosed : ∀ found ∈ segments text.toList, ¬ found.IsOpen := by
    rcases lineEq with same | dropped
    · rw [same]
      exact pieceClosed
    · rw [dropped]
      exact (dropReturn_of_closed pieceClosed).1
  have onFirstLine : events text defaultLabel = eventsOn defaultLabel 1 text.toList :=
    eventsFrom_segments_of_oneLine defaultLabel 1 oneLine
  rw [diagnostics_eq_filterMap_events, Option.getD_none, onFirstLine] at member
  obtain ⟨event, eventMember, isDiagnostic⟩ := List.mem_filterMap.1 member
  obtain ⟨found, foundMember, isEvent⟩ := List.mem_filterMap.1 eventMember
  cases found with
  | stray character =>
      cases isEvent
      cases isDiagnostic
      exact ⟨rfl, character, rfl⟩
  | openString contents => exact absurd trivial (textClosed _ foundMember)
  | lexeme found =>
      cases isEvent
      cases isDiagnostic
  | space character => cases isEvent
  | comment remark => cases isEvent

/-- The report of a diagnostic at the prompt and that of the same diagnostic in the
file show the same words. -/
theorem rows_eq_framed_texts (label : String)
    (bounded : source.toList.count lineFeed ≤ UInt32.size - 2)
    (isText : (Prompt.texts source)[index]? = some text) {diagnostic : Diagnostic}
    (position : diagnostic.position = ⟨1, defaultLabel⟩) :
    Report.rows diagnostic text =
        Report.framed diagnostic.cause 1 defaultLabel
          (String.ofList (trim text.toList)) ∧
      Report.rows (diagnostic.moveTo ⟨UInt32.ofNat (index + 1), label⟩) source =
        Report.framed diagnostic.cause (index + 1) label
          (String.ofList (trim text.toList)) := by
  obtain ⟨piece, isPiece, oneLine, _, lineEq⟩ := exists_piece_of_getElem?_texts isText
  have sameWords : trim piece = trim text.toList := by
    rcases lineEq with same | dropped
    · rw [same]
    · rw [dropped, trim_dropReturn]
  have onlyPiece : (text.toList.splitOn lineFeed)[0]? = some text.toList := by
    rw [List.splitOn_eq_singleton oneLine]
    rfl
  have firstLine : diagnostic.position.line.toNat = 0 + 1 := by
    rw [position]
    rfl
  have atPrompt := Report.rows_eq_framed onlyPiece firstLine
  rw [position] at atPrompt
  have movedLine :
      (diagnostic.moveTo ⟨UInt32.ofNat (index + 1), label⟩).position.line.toNat =
        index + 1 := toNat_line_of_getElem?_texts bounded isText
  have inFile := Report.rows_eq_framed isPiece movedLine
  rw [sameWords] at inFile
  exact ⟨atPrompt, inFile⟩

end Texts

/-! ## Agreement -/

/-- If no line of a text leaves a string open, a session at the prompt and a run of a
file with that text find the same tokens and diagnostics, line by line. -/
theorem prompt_file_agreement (source : String) (bytes : List UInt8) (path : String)
    (read : String → Except ReadFailure (List UInt8))
    (decoded : decodeText bytes = .ok source) (contents : read path = .ok bytes)
    (bounded : source.toList.count lineFeed ≤ UInt32.size - 2)
    (closed : ∀ piece ∈ source.toList.splitOn lineFeed,
      ∀ diagnostic ∈ (tokenize (String.ofList piece) none).diagnostics,
        ∀ contents, diagnostic.cause ≠ .unterminatedString contents) :
    let label := Path.label path
    let file := tokenize source (some label)
    let texts := Prompt.texts source
    Command.run read bytes .prompt = ⟨Prompt.transcript texts, .success⟩ ∧
    Command.run read bytes (.file path) =
      ⟨file.written source, if file.diagnostics = [] then .success else .badData⟩ ∧
    (texts.flatMap fun text => (tokenize text none).tokens.dropLast.map Token.content) =
      file.tokens.dropLast.map Token.content ∧
    (∀ index text, texts[index]? = some text →
      file.tokens.dropLast.filter (fun token => token.line.toNat = index + 1) =
        (tokenize text none).tokens.dropLast.map
          (Token.onLine (UInt32.ofNat (index + 1)))) ∧
    (file.diagnostics = texts.zipIdx.flatMap fun numbered =>
      (tokenize numbered.1 none).diagnostics.map
        (Diagnostic.moveTo ⟨UInt32.ofNat (numbered.2 + 1), label⟩)) ∧
    ∀ index text, texts[index]? = some text →
      ∀ diagnostic ∈ (tokenize text none).diagnostics,
        diagnostic.position = ⟨1, "shell"⟩ ∧
        (∃ character, diagnostic.cause = .unexpectedCharacter character) ∧
        (UInt32.ofNat (index + 1)).toNat = index + 1 ∧
        Report.rows diagnostic text =
          Report.framed diagnostic.cause 1 "shell" (String.ofList (trim text.toList)) ∧
        Report.rows (diagnostic.moveTo ⟨UInt32.ofNat (index + 1), label⟩) source =
          Report.framed diagnostic.cause (index + 1) label
            (String.ofList (trim text.toList)) := by
  have openFree : ∀ piece ∈ source.toList.splitOn lineFeed,
      ∀ found ∈ segments piece, ¬ found.IsOpen := by
    intro piece member
    have pieceClosed := not_isOpen_of_diagnostics (closed piece member)
    rw [String.toList_ofList] at pieceClosed
    exact pieceClosed
  intro label file texts
  refine ⟨Prompt.session_eq decoded, ?_, ?_, ?_, ?_, ?_⟩
  · exact Command.run_file contents decoded
  · exact flatMap_content_texts (some label) openFree
  · intro index text isText
    exact filter_line_tokens (some label) bounded openFree isText
  · exact diagnostics_eq_flatMap_texts (some label) openFree
  · intro index text isText diagnostic member
    obtain ⟨position, isCharacter⟩ := of_mem_diagnostics_texts openFree isText member
    exact ⟨position, isCharacter, toNat_line_of_getElem?_texts bounded isText,
      rows_eq_framed_texts label bounded isText position⟩

theorem agreement_across_line_endings :
    let source := "a @\r\n\"s\" // \"\r\n\n 1. $"
    let bytes := encode source.toList
    decodeText bytes = .ok source ∧
    source.toList.count lineFeed ≤ UInt32.size - 2 ∧
    (∀ piece ∈ source.toList.splitOn lineFeed,
      ∀ diagnostic ∈ (tokenize (String.ofList piece) none).diagnostics,
        ∀ contents, diagnostic.cause ≠ .unterminatedString contents) ∧
    Command.run (fun _ => .ok bytes) bytes .prompt =
      ⟨Prompt.transcript ["a @", "\"s\" // \"", "", " 1. $"], .success⟩ ∧
    ((tokenize source (some "x.lox")).tokens.dropLast.filter
        fun token => token.line.toNat = 4).map Token.lexeme = ["1", "."] ∧
    (tokenize source (some "x.lox")).diagnostics =
      [⟨.unexpectedCharacter '@', ⟨1, "x.lox"⟩⟩,
        ⟨.unexpectedCharacter '$', ⟨4, "x.lox"⟩⟩] := by
  intro source bytes
  have decoded : decodeText bytes = .ok source := by
    rw [decodeText_encode, String.ofList_toList]
  have bounded : source.toList.count lineFeed ≤ UInt32.size - 2 := by decide
  have causes : ((source.toList.splitOn lineFeed).flatMap fun piece =>
      (tokenize (String.ofList piece) none).diagnostics.map Diagnostic.cause) =
        [.unexpectedCharacter '@', .unexpectedCharacter '$'] := by
    decide +kernel
  have closed : ∀ piece ∈ source.toList.splitOn lineFeed,
      ∀ diagnostic ∈ (tokenize (String.ofList piece) none).diagnostics,
        ∀ contents, diagnostic.cause ≠ .unterminatedString contents := by
    intro piece pieceMember diagnostic member contents isOpen
    have causeMember : diagnostic.cause ∈
        (source.toList.splitOn lineFeed).flatMap fun piece =>
          (tokenize (String.ofList piece) none).diagnostics.map Diagnostic.cause :=
      List.mem_flatMap.2 ⟨piece, pieceMember, List.mem_map.2 ⟨diagnostic, member, rfl⟩⟩
    rw [causes, isOpen] at causeMember
    simp at causeMember
  have texts : Prompt.texts source = ["a @", "\"s\" // \"", "", " 1. $"] := by
    decide +kernel
  obtain ⟨session, -, -, lines, diagnostics, -⟩ := prompt_file_agreement source bytes "d/x.lox"
    (fun _ => .ok bytes) decoded rfl bounded closed
  have label : Path.label "d/x.lox" = "x.lox" := by decide +kernel
  have fourth := lines 3 " 1. $" (by rw [texts]; rfl)
  rw [label] at fourth diagnostics
  refine ⟨decoded, bounded, closed, ?_, ?_, ?_⟩
  · rw [session, texts]
  · rw [fourth]
    decide +kernel
  · rw [diagnostics, texts]
    decide +kernel

end LoxScanner
