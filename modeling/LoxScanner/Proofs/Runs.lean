import LoxScanner.Console.FileTree
import LoxScanner.Proofs.Acceptance
import LoxScanner.Proofs.PromptFile

/-!
# What a run writes and how it ends

A session at the prompt answers the lines of its input one by one and stops at the first
line that is no text; no line bears on the answer to another. A run of a file writes all
tokens whatever is wrong, then a complaint for each diagnostic, and ends well exactly if
the file's text is accepted.
-/

namespace LoxScanner

/-! ## Runs of the prompt -/

/-- What is wrong in a text of one line is wrong on line one. -/
theorem position_of_oneLine {text : String} {file : Option String}
    (oneLine : lineFeed ∉ text.toList) {diagnostic : Diagnostic}
    (member : diagnostic ∈ (tokenize text file).diagnostics) :
    diagnostic.position = ⟨1, file.getD defaultLabel⟩ := by
  rw [diagnostics_tokenize] at member
  obtain ⟨place, placeMember, isDiagnostic⟩ := List.mem_filterMap.1 member
  obtain ⟨cause, _, rfl⟩ := Option.map_eq_some_iff.1 isDiagnostic
  have absent : lineFeed ∉ place.before := by
    intro inBefore
    apply oneLine
    rw [← before_append_of_mem_placements placeMember]
    exact List.mem_append_left _ inBefore
  have lineEq : place.line = 1 := lineAfter_of_not_mem absent
  rw [lineEq]

namespace Prompt

theorem reply_eq_error {line : List UInt8} (notText : ¬ IsText line) :
    reply line = .error .notUtf8 := by
  rw [reply, decodeText_eq_error notText]
  rfl

theorem resume_cons_of_not_isText (before : Written) {line : List UInt8}
    (notText : ¬ IsText line) (others : List (List UInt8)) :
    resume before (line :: others) =
      ⟨before ++ ⟨mark, failureMessage .notUtf8⟩, .noInput⟩ := by
  rw [resume, reply_eq_error notText]
  simp only [Written.append_eq, String.append_empty]

/-- A session that meets a line that is no text does not go on to the lines after it. -/
theorem resume_append_of_not_isText {lines : List (List UInt8)} (before : Written)
    (fails : ∃ line ∈ lines, ¬ IsText line) (others : List (List UInt8)) :
    resume before (lines ++ others) = resume before lines := by
  induction lines generalizing before with
  | nil =>
      obtain ⟨line, member, _⟩ := fails
      cases member
  | cons line lines ih =>
      rw [List.cons_append]
      by_cases isText : IsText line
      · obtain ⟨text, rfl⟩ := isText
        have later : ∃ line ∈ lines, ¬ IsText line := by
          obtain ⟨failing, member, notText⟩ := fails
          rcases List.mem_cons.1 member with rfl | member
          · exact absurd ⟨text, rfl⟩ notText
          · exact ⟨failing, member, notText⟩
        rw [resume, resume, reply_encode]
        exact ih _ later
      · rw [resume_cons_of_not_isText before isText, resume_cons_of_not_isText before isText]

/-- Every diagnostic of a line that a session scans is on the first line of the text
that the prompt names. -/
theorem position_of_lines_eq {input : List UInt8} {texts : List String}
    {others : List (List UInt8)}
    (linesEq : lines input = (texts.map fun text => encode text.toList) ++ others) :
    ∀ text ∈ texts, ∀ diagnostic ∈ (tokenize text none).diagnostics,
      diagnostic.position = ⟨1, "shell"⟩ := by
  intro text member diagnostic diagnosticMember
  have isLine : encode text.toList ∈ lines input := by
    rw [linesEq]
    exact List.mem_append_left _ (List.mem_map_of_mem member)
  unfold lines at isLine
  have oneLine : lineFeed ∉ text.toList :=
    mt lineFeedByte_mem_encode (not_mem_of_mem_linesOf isLine)
  exact position_of_oneLine oneLine diagnosticMember

/-- Nothing that follows a whole line that is no text bears on a session. -/
theorem session_append_feed {front : List UInt8}
    (fails : ∃ line ∈ lines (front ++ [lineFeedByte]), ¬ IsText line) (tail : List UInt8) :
    session (front ++ lineFeedByte :: tail) = session (front ++ [lineFeedByte]) := by
  have linesEq : lines (front ++ lineFeedByte :: tail) =
      lines (front ++ [lineFeedByte]) ++ lines tail := linesOf_append_feed front tail
  rw [session, session, linesEq]
  exact resume_append_of_not_isText .nothing fails (lines tail)

end Prompt

/-- What a run without arguments writes and how it ends, whatever its input is. -/
theorem run_without_arguments (read : String → Except ReadFailure (List UInt8))
    (input : List UInt8) :
    let lines := Prompt.lines input
    let outcome := Command.run read input (.ofArguments [])
    (∃ (ended : List (List UInt8)) (rest : List UInt8),
      input = (ended.flatMap fun line => line ++ [Prompt.lineFeedByte]) ++ rest ∧
      (∀ line ∈ ended, Prompt.lineFeedByte ∉ line) ∧ Prompt.lineFeedByte ∉ rest ∧
      lines = ended.map (dropAtEnd Prompt.carriageReturnByte) ++
        if rest = [] then [] else [rest]) ∧
    ((∀ line ∈ lines, IsText line) →
      ∃ texts : List String, (lines = texts.map fun text => encode text.toList) ∧
        (∀ text ∈ texts, ∀ diagnostic ∈ (tokenize text none).diagnostics,
          diagnostic.position = ⟨1, "shell"⟩) ∧
        outcome.written = Prompt.answers texts ++ ⟨"> \n", ""⟩ ∧
        outcome.ending.status = 0) ∧
    (∀ before line others, lines = before ++ line :: others →
      (∀ earlier ∈ before, IsText earlier) → ¬ IsText line →
      ∃ texts : List String, (before = texts.map fun text => encode text.toList) ∧
        (∀ text ∈ texts, ∀ diagnostic ∈ (tokenize text none).diagnostics,
          diagnostic.position = ⟨1, "shell"⟩) ∧
        outcome.written = Prompt.answers texts ++
          ⟨"> ", "Failed to read input: stream did not contain valid UTF-8\n"⟩ ∧
        outcome.ending.status = 66) ∧
    ∀ front tail, input = front ++ Prompt.lineFeedByte :: tail →
      (∃ line ∈ Prompt.lines (front ++ [Prompt.lineFeedByte]), ¬ IsText line) →
      ∀ other, Command.run read (front ++ Prompt.lineFeedByte :: other) (.ofArguments []) =
        outcome := by
  intro lines outcome
  have isSession : outcome = Prompt.session input := rfl
  refine ⟨?_, ?_, ?_, ?_⟩
  · exact exists_linesOf_eq Prompt.lineFeedByte Prompt.carriageReturnByte input
  · intro areTexts
    obtain ⟨texts, linesEq⟩ := exists_texts_of_isText areTexts
    have allTexts : lines = (texts.map fun text => encode text.toList) ++ [] := by
      rw [linesEq, List.append_nil]
    have answered : outcome = Prompt.resume (Prompt.answers texts) [] :=
      Prompt.session_append allTexts
    rw [answered]
    exact ⟨texts, linesEq, Prompt.position_of_lines_eq allTexts, rfl, rfl⟩
  · intro before line others linesEq areTexts notText
    obtain ⟨texts, rfl⟩ := exists_texts_of_isText areTexts
    have failed : outcome = Prompt.resume (Prompt.answers texts) (line :: others) :=
      Prompt.session_append linesEq
    rw [failed, Prompt.resume_cons_of_not_isText _ notText]
    exact ⟨texts, rfl, Prompt.position_of_lines_eq linesEq, rfl, rfl⟩
  · intro front tail inputEq fails other
    have whole := Prompt.session_append_feed fails tail
    rw [← inputEq] at whole
    rw [isSession, whole]
    exact Prompt.session_append_feed fails other

theorem sessions_with_open_string_and_wrong_byte :
    let read : String → Except ReadFailure (List UInt8) := fun _ => .error .notFound
    let input := encode "a@\r\n\"s".toList
    let front := encode "a\r\n".toList ++ [0xFF]
    let stopping := front ++ Prompt.lineFeedByte :: [0x62]
    ((∀ line ∈ Prompt.lines input, IsText line) ∧
      (Command.run read input (.ofArguments [])).written =
        ⟨"> IDENTIFIER a null\nEOF  null\n> EOF  null\n> \n",
          "[line 1] Error: unexpected character '@'\n" ++
          "Error: UnexpectedCharacter (Unexpected character `@`)\n" ++
          "-> shell\n  |\n1 | a@\n  |\n" ++
          "[line 1] Error: unterminated string\n" ++
          "Error: UnterminatedString (Missing closing `\"` after `s`)\n" ++
          "-> shell\n  |\n1 | \"s\n  |\n"⟩ ∧
      (Command.run read input (.ofArguments [])).ending.status = 0) ∧
    (Prompt.lines stopping = [[0x61], [0xFF], [0x62]] ∧ IsText [0x61] ∧ ¬ IsText [0xFF] ∧
      (Command.run read stopping (.ofArguments [])).written =
        ⟨"> IDENTIFIER a null\nEOF  null\n> ",
          "Failed to read input: stream did not contain valid UTF-8\n"⟩ ∧
      (Command.run read stopping (.ofArguments [])).ending.status = 66) ∧
    Command.run read (front ++ Prompt.lineFeedByte :: []) (.ofArguments []) =
      Command.run read stopping (.ofArguments []) := by
  intro read input front stopping
  have textsOnly := List.map_injective_iff.2 encode_toList_injective
  obtain ⟨-, answered, -⟩ := run_without_arguments read input
  obtain ⟨-, -, stopped, unread⟩ := run_without_arguments read stopping
  refine ⟨?_, ?_, ?_⟩
  · have areTexts : ∀ line ∈ Prompt.lines input, IsText line := by decide +kernel
    obtain ⟨texts, linesEq, -, written, status⟩ := answered areTexts
    have cut : Prompt.lines input =
        ["a@", "\"s"].map fun text => encode text.toList := by decide +kernel
    have textsEq : texts = ["a@", "\"s"] := textsOnly (linesEq.symm.trans cut)
    refine ⟨areTexts, ?_, status⟩
    rw [written, textsEq]
    decide +kernel
  · have cut : Prompt.lines stopping = [[0x61]] ++ [0xFF] :: [[0x62]] := by decide +kernel
    have isText : IsText [0x61] := by decide +kernel
    have notText : ¬ IsText [0xFF] := by decide +kernel
    obtain ⟨texts, linesEq, -, written, status⟩ :=
      stopped [[0x61]] [0xFF] [[0x62]] cut (List.forall_mem_singleton.2 isText) notText
    have textsEq : texts = ["a"] := textsOnly linesEq.symm
    refine ⟨cut, isText, notText, ?_, status⟩
    rw [written, textsEq]
    decide +kernel
  · have fails : ∃ line ∈ Prompt.lines (front ++ [Prompt.lineFeedByte]), ¬ IsText line := by
      decide +kernel
    exact unread front [0x62] rfl fails []

/-! ## Runs of a file -/

/-- Every diagnostic shows. -/
theorem Scan.complaints_eq_empty_iff (scan : Scan) (source : String) :
    scan.complaints source = "" ↔ scan.diagnostics = [] := by
  unfold complaints
  cases scan.diagnostics with
  | nil => exact iff_of_true rfl rfl
  | cons diagnostic others =>
      apply iff_of_false
      · intro isEmpty
        have noCharacters := congrArg String.toList isEmpty
        simp at noCharacters
      · exact List.cons_ne_nil diagnostic others

theorem display_endOfText (line : UInt32) : (Token.endOfText line).display = "EOF  null" :=
  rfl

theorem listing_eq_append_endOfText (source : String) (file : Option String) :
    ∃ rows, (tokenize source file).listing = rows ++ "EOF  null\n" := by
  let found := (placements source.toList).filterMap Placement.token?
  refine ⟨unlines (found.map Token.display), ?_⟩
  have lastRow : String.join ["EOF  null" ++ "\n"] = "EOF  null\n" := rfl
  rw [Scan.listing, tokens_tokenize, unlines, unlines, List.map_append, List.map_singleton,
    display_endOfText, List.map_append, String.join_append, List.map_singleton, lastRow]

theorem Command.failureMessage_notUtf8 (path : String) :
    failureMessage path .notUtf8 =
      "Failed to read " ++ path ++ ": stream did not contain valid UTF-8\n" := by
  have message : ReadFailure.notUtf8.message = "stream did not contain valid UTF-8" := rfl
  have reason : ": " ++ ("stream did not contain valid UTF-8" ++ "\n") =
      ": stream did not contain valid UTF-8\n" := by decide +kernel
  unfold failureMessage
  rw [message, ← reason]
  simp only [String.append_assoc]

theorem Command.run_file_of_error {read : String → Except ReadFailure (List UInt8)}
    {input : List UInt8} {path : String} {failure : ReadFailure}
    (unread : (read path >>= decodeText) = .error failure) :
    run read input (.file path) = ⟨⟨"", failureMessage path failure⟩, .noInput⟩ := by
  rw [run, scanFile, unread]

/-- What a run with one argument writes and how it ends, whatever the argument leads to. -/
theorem run_with_path (read : String → Except ReadFailure (List UInt8)) (input : List UInt8)
    (path : String) :
    let outcome := Command.run read input (.ofArguments [path])
    (∀ failure, read path = .error failure →
      outcome.written =
        ⟨"", "Failed to read " ++ path ++ ": " ++ failure.message ++ "\n"⟩ ∧
      outcome.ending.status = 66) ∧
    (∀ bytes, read path = .ok bytes → ¬ IsText bytes →
      outcome.written =
        ⟨"", "Failed to read " ++ path ++ ": stream did not contain valid UTF-8\n"⟩ ∧
      outcome.ending.status = 66) ∧
    ∀ source : String, read path = .ok (encode source.toList) →
      let scan := tokenize source (some (Path.label path))
      outcome.written.output =
        String.join (scan.tokens.map fun token => token.display ++ "\n") ∧
      (∃ rows, outcome.written.output = rows ++ "EOF  null\n") ∧
      outcome.written.errors = String.join (scan.diagnostics.map fun diagnostic =>
        diagnostic.display ++ "\n" ++ diagnostic.render source) ∧
      (scan.diagnostics =
        (placements source.toList).filterMap (Placement.diagnostic? (Path.label path))) ∧
      outcome.ending.status = (if outcome.written.errors = "" then 0 else 65) ∧
      (outcome.ending.status = 0 ↔ Accepted source.toList) := by
  intro outcome
  refine ⟨?_, ?_, ?_⟩
  · intro failure missing
    have unread : (read path >>= decodeText) = .error failure := by
      rw [missing]
      rfl
    have failed : outcome = ⟨⟨"", Command.failureMessage path failure⟩, .noInput⟩ :=
      Command.run_file_of_error unread
    rw [failed]
    exact ⟨rfl, rfl⟩
  · intro bytes contents notText
    have unread : (read path >>= decodeText) = .error .notUtf8 := by
      rw [contents]
      exact decodeText_eq_error notText
    have failed : outcome = ⟨⟨"", Command.failureMessage path .notUtf8⟩, .noInput⟩ :=
      Command.run_file_of_error unread
    rw [failed, ← Command.failureMessage_notUtf8]
    exact ⟨rfl, rfl⟩
  · intro source contents scan
    have ran : outcome =
        ⟨scan.written source, if scan.diagnostics = [] then .success else .badData⟩ :=
      Command.run_file contents (decodeText_encode_toList source)
    have exitStatus : outcome.ending.status = if scan.diagnostics = [] then 0 else 65 := by
      rw [ran]
      exact apply_ite Ending.status _ _ _
    have noDiagnostics : scan.diagnostics = [] ↔ Accepted source.toList := by
      rw [diagnostics_eq_nil_iff_forall_isElement, accepted_iff_forall_isElement]
    have noErrors : outcome.written.errors = "" ↔ scan.diagnostics = [] := by
      rw [ran]
      exact scan.complaints_eq_empty_iff source
    refine ⟨?_, ?_, ?_, diagnostics_tokenize source _, ?_, ?_⟩
    · rw [ran, Scan.written, Scan.listing, unlines, List.map_map]
      rfl
    · rw [ran]
      exact listing_eq_append_endOfText source _
    · rw [ran]
      rfl
    · simp only [exitStatus, noErrors]
    · rw [exitStatus, ← noDiagnostics]
      simp

theorem runs_of_missing_wrong_and_read_files :
    let bad := "a @\n\"b"
    let reports :=
      "[line 1] Error: unexpected character '@'\n" ++
      "Error: UnexpectedCharacter (Unexpected character `@`)\n" ++
      "-> bad.lox\n  |\n1 | a @\n  |\n" ++
      "[line 2] Error: unterminated string\n" ++
      "Error: UnterminatedString (Missing closing `\"` after `b`)\n" ++
      "-> bad.lox\n  |\n2 | \"b\n  |\n"
    let clean := "x = .5 // @"
    let tree : FileTree :=
      ⟨[(["bytes"], [0xC3, 0x28]), (["d", "bad.lox"], encode bad.toList),
        (["clean.lox"], encode clean.toList)], []⟩
    let outcome := fun path => Command.run tree.read [] (.ofArguments [path])
    (tree.read "gone" = .error .notFound ∧
      (outcome "gone").written =
        ⟨"", "Failed to read gone: No such file or directory (os error 2)\n"⟩ ∧
      (outcome "gone").ending.status = 66) ∧
    (tree.read "bytes" = .ok [0xC3, 0x28] ∧ ¬ IsText [0xC3, 0x28] ∧
      (outcome "bytes").written =
        ⟨"", "Failed to read bytes: stream did not contain valid UTF-8\n"⟩ ∧
      (outcome "bytes").ending.status = 66) ∧
    (tree.read "d/bad.lox" = .ok (encode bad.toList) ∧
      (outcome "d/bad.lox").written.output = "IDENTIFIER a null\nEOF  null\n" ∧
      (outcome "d/bad.lox").written.errors = reports ∧
      (outcome "d/bad.lox").ending.status = 65 ∧ ¬ Accepted bad.toList) ∧
    (tree.read "clean.lox" = .ok (encode clean.toList) ∧
      (outcome "clean.lox").written.errors = "" ∧
      (outcome "clean.lox").ending.status = 0 ∧ Accepted clean.toList) := by
  intro bad reports clean tree outcome
  refine ⟨?_, ?_, ?_, ?_⟩
  · have missing : tree.read "gone" = .error .notFound := rfl
    obtain ⟨failed, -⟩ := run_with_path tree.read [] "gone"
    obtain ⟨written, status⟩ := failed .notFound missing
    refine ⟨missing, ?_, status⟩
    rw [written]
    decide +kernel
  · have contents : tree.read "bytes" = .ok [0xC3, 0x28] := rfl
    have notText : ¬ IsText [0xC3, 0x28] := by decide +kernel
    obtain ⟨-, failed, -⟩ := run_with_path tree.read [] "bytes"
    obtain ⟨written, status⟩ := failed [0xC3, 0x28] contents notText
    refine ⟨contents, notText, ?_, status⟩
    rw [written]
    decide +kernel
  · have contents : tree.read "d/bad.lox" = .ok (encode bad.toList) := by decide +kernel
    obtain ⟨-, -, scanned⟩ := run_with_path tree.read [] "d/bad.lox"
    obtain ⟨output, -, errors, -, status, accepted⟩ := scanned bad contents
    have shown : (outcome "d/bad.lox").written.errors = reports :=
      errors.trans (by decide +kernel)
    have failed : (outcome "d/bad.lox").ending.status = 65 := by
      have notEmpty : reports ≠ "" := by decide +kernel
      rw [status, shown, if_neg notEmpty]
    refine ⟨contents, ?_, shown, failed, ?_⟩
    · rw [output]
      decide +kernel
    · rw [← accepted, failed]
      decide
  · have contents : tree.read "clean.lox" = .ok (encode clean.toList) := by decide +kernel
    obtain ⟨-, -, scanned⟩ := run_with_path tree.read [] "clean.lox"
    obtain ⟨-, -, errors, -, status, accepted⟩ := scanned clean contents
    have nothing : (outcome "clean.lox").written.errors = "" :=
      errors.trans (by decide +kernel)
    have succeeded : (outcome "clean.lox").ending.status = 0 := by
      rw [status, if_pos nothing]
    exact ⟨contents, nothing, succeeded, accepted.1 succeeded⟩

end LoxScanner
