import LoxScanner.Proofs.Composition
import LoxScanner.Proofs.Lossless

/-!
# Strings left open

A string that is left open reaches to the end of its text, so a text has at most one. The
scan up to its quote is the scan of the text before it, and a quote at the end of the text
makes a string of it and changes nothing else.
-/

namespace LoxScanner

/-- Whether a cause is a string that is left open. -/
def Cause.isOpenString : Cause → Bool
  | unexpectedCharacter _ => false
  | unterminatedString _ => true

/-! ## Where a string is left open -/

namespace Segment.Longest

variable {piece : Segment} {rest : List Char}

/-- A segment that a text does not continue is not continued by the start of that text. -/
theorem of_append {tail : List Char} (longest : piece.Longest (rest ++ tail)) :
    piece.Longest rest := by
  have sameRun : rest.takeWhile continuesLexeme <+: rest ++ tail :=
    (List.takeWhile_prefix _).trans (List.prefix_append rest tail)
  apply longest.of_run sameRun
  · rintro remark rfl c isHead
    obtain ⟨others, rfl⟩ := List.head?_eq_some_iff.1 isHead
    exact longest.ends c rfl
  · intro isOpen
    exact (List.append_eq_nil_iff.1 (longest.eq_nil_of_isOpen isOpen)).1

/-- A quote continues no segment, so what follows it does not matter. -/
theorem replace_after_quote {contents : List Char}
    (longest : piece.Longest (rest ++ quote :: contents)) (others : List Char) :
    piece.Longest (rest ++ quote :: others) := by
  have sameRun : (rest ++ quote :: others).takeWhile continuesLexeme <+:
      rest ++ quote :: contents :=
    (prefix_takeWhile_append_cons rfl rest others).trans (List.prefix_append rest _)
  apply longest.of_run sameRun
  · rintro remark rfl c isHead
    cases rest with
    | nil => exact longest.ends c isHead
    | cons first more => exact longest.ends c isHead
  · intro isOpen
    have atEnd := longest.eq_nil_of_isOpen isOpen
    simp at atEnd

end Segment.Longest

/-- A text that leaves a string open: the segments before the quote are those of the text
before it, which leaves none open, and a quote at the end closes the string. -/
structure LeavesOpen (text before contents : List Char) : Prop where
  whole : text = before ++ quote :: contents
  noQuote : quote ∉ contents
  closed : ∀ piece ∈ segments before, ¬ piece.IsOpen
  broken : segments text = segments before ++ [.openString contents]
  mended : segments (text ++ [quote]) = segments before ++ [.lexeme (.string contents)]

theorem Segment.exists_openString {piece : Segment} (isOpen : piece.IsOpen) :
    ∃ contents, piece = openString contents := by
  cases piece with
  | openString contents => exact ⟨contents, rfl⟩
  | _ => cases isOpen

/-- A text leaves no string open, or its last segment is the one string that it does. -/
theorem segments_closed_or_open (text : List Char) :
    (∀ piece ∈ segments text, ¬ piece.IsOpen) ∨
      ∃ front contents, segments text = front ++ [.openString contents] ∧
        ∀ piece ∈ front, ¬ piece.IsOpen := by
  induction text using segments_induction with
  | empty => exact Or.inl (by simp)
  | step first rest ih =>
      have longest := Segment.cut_longest first rest
      rw [segments_cons]
      by_cases isOpen : (Segment.cut first rest).1.IsOpen
      · have atEnd := longest.eq_nil_of_isOpen isOpen
        obtain ⟨contents, openEq⟩ := Segment.exists_openString isOpen
        refine Or.inr ⟨[], contents, ?_, by simp⟩
        rw [atEnd, openEq, segments_nil]
        rfl
      · rcases ih with closed | ⟨front, contents, segmentsEq, closed⟩
        · exact Or.inl (List.forall_mem_cons.2 ⟨isOpen, closed⟩)
        · refine Or.inr ⟨(Segment.cut first rest).1 :: front, contents, ?_, ?_⟩
          · rw [segmentsEq, List.cons_append]
          · exact List.forall_mem_cons.2 ⟨isOpen, closed⟩

theorem leavesOpen_of_segments {text contents : List Char} {front : List Segment}
    (segmentsEq : segments text = front ++ [.openString contents])
    (closed : ∀ piece ∈ front, ¬ piece.IsOpen) :
    LeavesOpen text (front.flatMap Segment.text) contents := by
  have tiling := segments_tiling text
  rw [segmentsEq] at tiling
  have openText : [Segment.openString contents].flatMap Segment.text = quote :: contents := by
    simp [Segment.text]
  have whole : text = front.flatMap Segment.text ++ quote :: contents := by
    rw [← tiling.flatMap_text, List.flatMap_append, openText]
  have noQuote : quote ∉ contents := by
    have member : Segment.openString contents ∈ segments text := by
      rw [segmentsEq]
      simp
    exact wellFormed_of_mem_segments member
  have frontTiling : Tiling Segment.Longest (front ++ []) (front.flatMap Segment.text ++ []) := by
    apply tiling.replaceEnd _ .nil
    intro piece _ rest longest
    rw [List.append_nil]
    exact longest.of_append
  have isString : (Segment.lexeme (.string contents)).WellFormed := noQuote
  have mendedTiling : Tiling Segment.Longest (front ++ [.lexeme (.string contents)])
      (front.flatMap Segment.text ++ quote :: (contents ++ [quote])) := by
    apply tiling.replaceEnd _ (tiling_singleton isString)
    intro piece _ rest longest
    rw [openText] at longest
    exact longest.replace_after_quote (contents ++ [quote])
  rw [List.append_nil, List.append_nil] at frontTiling
  have frontEq : segments (front.flatMap Segment.text) = front := frontTiling.segments_eq
  refine ⟨whole, noQuote, ?_, ?_, ?_⟩
  · rw [frontEq]
    exact closed
  · rw [frontEq, segmentsEq]
  · rw [frontEq, ← mendedTiling.segments_eq]
    congr 1
    rw [whole, List.append_assoc, List.cons_append]

/-! ## Scans of open strings -/

theorem isOpenString_eq_false {source : String} (file : Option String)
    (closed : ∀ piece ∈ segments source.toList, ¬ piece.IsOpen) :
    ∀ diagnostic ∈ (tokenize source file).diagnostics, diagnostic.cause.isOpenString = false := by
  intro diagnostic member
  have causeMember := List.mem_map_of_mem (f := Diagnostic.cause) member
  rw [map_cause_diagnostics_tokenize] at causeMember
  obtain ⟨piece, pieceMember, isCause⟩ := List.mem_filterMap.1 causeMember
  cases causeEq : diagnostic.cause with
  | unexpectedCharacter c => rfl
  | unterminatedString contents =>
      rw [causeEq] at isCause
      exact absurd (Segment.isOpen_iff_cause?.2 ⟨contents, isCause⟩) (closed piece pieceMember)

theorem filter_isOpenString_eq_nil {source : String} {file : Option String}
    (closed : ∀ piece ∈ segments source.toList, ¬ piece.IsOpen) :
    ((tokenize source file).diagnostics.filter fun diagnostic =>
      diagnostic.cause.isOpenString) = [] := by
  rw [List.filter_eq_nil_iff]
  intro diagnostic member
  rw [isOpenString_eq_false file closed diagnostic member]
  exact Bool.false_ne_true

namespace LeavesOpen

variable {source before : String} {contents : List Char}

/-- The event of an open string comes after those of the text before its quote. -/
theorem events_eq (opens : LeavesOpen source.toList before.toList contents) (label : String) :
    events source label = events before label ++
      [.diagnostic ⟨.unterminatedString (String.ofList contents),
        ⟨lineAfter 1 before.toList, label⟩⟩] := by
  rw [events, opens.broken, eventsFrom_append, flatMap_text_segments, eventsFrom_cons,
    eventsFrom_nil, List.append_nil]
  rfl

theorem events_mended (opens : LeavesOpen source.toList before.toList contents)
    (label : String) :
    events (source ++ "\"") label = events before label ++
      [.token ((Lexeme.string contents).token (lineAfter 1 before.toList))] := by
  have textEq : (source ++ "\"").toList = source.toList ++ [quote] := String.toList_append
  rw [events, textEq, opens.mended, eventsFrom_append, flatMap_text_segments, eventsFrom_cons,
    eventsFrom_nil, List.append_nil]
  rfl

theorem lineAfter_mended (source : String) :
    lineAfter 1 (source ++ "\"").toList = lineAfter 1 source.toList := by
  have textEq : (source ++ "\"").toList = source.toList ++ [quote] := String.toList_append
  rw [textEq, ← lineAfter_lineAfter, lineAfter_of_not_mem (by decide)]

variable (file : Option String)

theorem diagnostics_eq (opens : LeavesOpen source.toList before.toList contents) :
    (tokenize source file).diagnostics = (tokenize before file).diagnostics ++
      [⟨.unterminatedString (String.ofList contents),
        ⟨lineAfter 1 before.toList, file.getD defaultLabel⟩⟩] := by
  rw [diagnostics_eq_filterMap_events, opens.events_eq, List.filterMap_append]
  rfl

theorem tokens_eq (opens : LeavesOpen source.toList before.toList contents) :
    (tokenize source file).tokens =
      (tokenize before file).tokens.dropLast ++ [.endOfText (lineAfter 1 source.toList)] := by
  rw [dropLast_tokens_tokenize, tokenize, opens.events_eq, List.filterMap_append]
  simp [Event.token?]

theorem diagnostics_mended (opens : LeavesOpen source.toList before.toList contents) :
    (tokenize (source ++ "\"") file).diagnostics = (tokenize before file).diagnostics := by
  rw [diagnostics_eq_filterMap_events, opens.events_mended, List.filterMap_append]
  exact List.append_nil _

theorem tokens_mended (opens : LeavesOpen source.toList before.toList contents) :
    (tokenize (source ++ "\"") file).tokens =
      (tokenize before file).tokens.dropLast ++
        [(Lexeme.string contents).token (lineAfter 1 before.toList),
          .endOfText (lineAfter 1 source.toList)] := by
  rw [dropLast_tokens_tokenize, tokenize, opens.events_mended, List.filterMap_append,
    lineAfter_mended]
  simp [Event.token?]

end LeavesOpen

theorem exists_leavesOpen (source : String) :
    (∀ piece ∈ segments source.toList, ¬ piece.IsOpen) ∨
      ∃ (before : String) (contents : List Char),
        LeavesOpen source.toList before.toList contents := by
  rcases segments_closed_or_open source.toList with closed | ⟨front, contents, segmentsEq, closed⟩
  · exact Or.inl closed
  · have opens := leavesOpen_of_segments segmentsEq closed
    refine Or.inr ⟨String.ofList (front.flatMap Segment.text), contents, ?_⟩
    rw [String.toList_ofList]
    exact opens

theorem Lexeme.token_string (contents : List Char) (line : UInt32) :
    (string contents).token line =
      ⟨.string, "\"" ++ String.ofList contents ++ "\"",
        some (.string (String.ofList contents)), line⟩ := by
  have lexemeEq : String.ofList (string contents).text =
      "\"" ++ String.ofList contents ++ "\"" := by
    apply String.toList_inj.1
    simp [text, quote]
  rw [token, lexemeEq]
  rfl

/-- A scan reports at most one string as left open, and reports it last. Nothing is found
behind its quote: the other diagnostics and the tokens are those of the text before the
quote. A quote at the end mends the text: the same tokens are found, then the string, on the
line of the diagnostic, and the same end, and the diagnostic is gone. -/
theorem tokenize_openString (source : String) (file : Option String) :
    ((tokenize source file).diagnostics.filter fun diagnostic =>
        diagnostic.cause.isOpenString).length ≤ 1 ∧
    ∀ diagnostic ∈ (tokenize source file).diagnostics, ∀ contents,
      diagnostic.cause = .unterminatedString contents →
      ∃ (before : String) (body : List Token) (others : List Diagnostic) (last : UInt32),
        source = before ++ "\"" ++ contents ∧ quote ∉ contents.toList ∧
        (∀ token ∈ body, token.kind ≠ .endOfText) ∧
        (tokenize source file).diagnostics = others ++ [diagnostic] ∧
        (tokenize source file).tokens = body ++ [.endOfText last] ∧
        (tokenize before file).diagnostics = others ∧
        (tokenize before file).tokens = body ++ [.endOfText diagnostic.position.line] ∧
        (tokenize (source ++ "\"") file).diagnostics = others ∧
        (tokenize (source ++ "\"") file).tokens = body ++
          [⟨.string, "\"" ++ contents ++ "\"", some (.string contents),
            diagnostic.position.line⟩, .endOfText last] := by
  rcases exists_leavesOpen source with closed | ⟨before, rest, opens⟩
  · have noneOpen := isOpenString_eq_false file closed
    refine ⟨?_, ?_⟩
    · rw [filter_isOpenString_eq_nil closed]
      exact Nat.zero_le 1
    · intro diagnostic member contents isOpen
      have notOpen := noneOpen diagnostic member
      rw [isOpen] at notOpen
      cases notOpen
  · have brokenEq := opens.diagnostics_eq file
    have noneOpen := isOpenString_eq_false file opens.closed
    rw [brokenEq]
    refine ⟨?_, ?_⟩
    · rw [List.filter_append, filter_isOpenString_eq_nil opens.closed]
      exact Nat.le_refl 1
    · intro diagnostic member contents isOpen
      rcases List.mem_append.1 member with earlier | isLast
      · have notOpen := noneOpen diagnostic earlier
        rw [isOpen] at notOpen
        cases notOpen
      · have diagnosticEq := List.mem_singleton.1 isLast
        subst diagnosticEq
        have contentsEq : String.ofList rest = contents := Cause.unterminatedString.inj isOpen
        subst contentsEq
        refine ⟨before, (tokenize before file).tokens.dropLast, _, lineAfter 1 source.toList,
          ?_, ?_, fun token => kind_ne_endOfText_of_mem_dropLast, rfl, opens.tokens_eq file,
          rfl, ?_, opens.diagnostics_mended file, ?_⟩
        · apply String.toList_inj.1
          rw [opens.whole]
          simp [quote]
        · rw [String.toList_ofList]
          exact opens.noQuote
        · rw [dropLast_tokens_tokenize]
          rfl
        · rw [opens.tokens_mended, Lexeme.token_string]

/-- A quote in a comment and a string over two lines before the string left open, which
goes over two lines itself. -/
theorem open_string_mended :
    let source := "a // \"\n\"s\nt\" @ \"u\nv"
    let report : Diagnostic := ⟨.unterminatedString "u\nv", ⟨3, "shell"⟩⟩
    report ∈ (tokenize source none).diagnostics ∧
    report.cause = .unterminatedString "u\nv" ∧
    (tokenize "a // \"\n\"s\nt\" @ " none).diagnostics =
      [⟨.unexpectedCharacter '@', ⟨3, "shell"⟩⟩] ∧
    (tokenize (source ++ "\"") none).diagnostics =
      [⟨.unexpectedCharacter '@', ⟨3, "shell"⟩⟩] ∧
    (tokenize (source ++ "\"") none).tokens = (tokenize source none).tokens.dropLast ++
      [⟨.string, "\"u\nv\"", some (.string "u\nv"), 3⟩, .endOfText 4] := by
  intro source report
  have found : (tokenize source none).diagnostics =
      [⟨.unexpectedCharacter '@', ⟨3, "shell"⟩⟩] ++ [report] := by
    decide +kernel
  have member : report ∈ (tokenize source none).diagnostics := by simp [found]
  obtain ⟨before, body, others, last, textEq, -, -, brokenEq, tokensEq, beforeEq, -,
    mendedEq, mendedTokensEq⟩ := (tokenize_openString source none).2 report member "u\nv" rfl
  have lastEq : (tokenize source none).tokens.getLast? = some (.endOfText 4) := by
    decide +kernel
  rw [tokensEq, List.getLast?_concat] at lastEq
  rw [found] at brokenEq
  have othersEq := List.append_cancel_right brokenEq
  have split : source = "a // \"\n\"s\nt\" @ " ++ "\"" ++ "u\nv" := by decide +kernel
  have beforeTextEq : before = "a // \"\n\"s\nt\" @ " := by
    rw [split, String.append_left_inj, String.append_left_inj] at textEq
    exact textEq.symm
  refine ⟨member, rfl, ?_, ?_, ?_⟩
  · rw [← beforeTextEq, beforeEq, othersEq]
  · rw [mendedEq, othersEq]
  · rw [mendedTokensEq, tokensEq, List.dropLast_concat]
    cases lastEq
    rfl

end LoxScanner
