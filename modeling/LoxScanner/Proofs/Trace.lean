import LoxScanner.Proofs.LineNumbers
import LoxScanner.Proofs.Lossless
import LoxScanner.Trace

/-!
# The log of a scan

Each segment that a scan reads logs what it gives, at the offset where the segment starts.
So the log of a whole scan holds its tokens and its diagnostics in the order of the text,
and forgetting one kind of events leaves the list of the other.
-/

namespace LoxScanner

/-! ## Offsets -/

theorem byteCount_pos {text : List Char} (notEmpty : text ≠ []) : 0 < byteCount text := by
  cases text with
  | nil => exact absurd rfl notEmpty
  | cons c others =>
      have positive := c.utf8Size_pos
      rw [byteCount_cons]
      omega

namespace Placement

/-- The byte offset at which a segment starts. -/
def offset (place : Placement) : Nat :=
  byteCount place.before

/-- What a scan that labels its diagnostics finds at a placement. -/
def event? (label : String) (place : Placement) : Option Event :=
  place.piece.event? label place.line

/-- What a scan finds at a placement, with the offset at which it starts. -/
def entry? (label : String) (place : Placement) : Option (Nat × Event) :=
  (place.event? label).map fun event => (place.offset, event)

end Placement

theorem le_offset_of_mem_placementsFrom {before : List Char} {pieces : List Segment}
    {place : Placement} (member : place ∈ placementsFrom before pieces) :
    byteCount before ≤ place.offset := by
  induction pieces generalizing before with
  | nil => cases member
  | cons piece pieces ih =>
      rw [placementsFrom] at member
      rcases List.mem_cons.1 member with rfl | later
      · exact Nat.le_refl _
      · have further := ih later
        rw [byteCount_append] at further
        omega

theorem pairwise_offset_placementsFrom {before : List Char} {pieces : List Segment}
    (notEmpty : ∀ piece ∈ pieces, piece.text ≠ []) :
    (placementsFrom before pieces).Pairwise fun earlier later =>
      earlier.offset < later.offset := by
  induction pieces generalizing before with
  | nil => exact List.Pairwise.nil
  | cons piece pieces ih =>
      rw [List.forall_mem_cons] at notEmpty
      obtain ⟨pieceNotEmpty, othersNotEmpty⟩ := notEmpty
      rw [placementsFrom]
      refine List.Pairwise.cons ?_ (ih othersNotEmpty)
      intro later member
      have beyond := le_offset_of_mem_placementsFrom member
      have taken := byteCount_pos pieceNotEmpty
      rw [byteCount_append] at beyond
      change byteCount before < later.offset
      omega

/-- Of two segments of a text the later one starts at a greater offset. -/
theorem pairwise_offset_placements (text : List Char) :
    (placements text).Pairwise fun earlier later => earlier.offset < later.offset := by
  apply pairwise_offset_placementsFrom
  intro piece member
  exact Segment.text_ne_nil (wellFormed_of_mem_segments member)

theorem pairwise_entries (label : String) (text : List Char) :
    ((placements text).filterMap (Placement.entry? label)).Pairwise
      fun earlier later => earlier.1 < later.1 := by
  rw [List.pairwise_filterMap]
  apply (pairwise_offset_placements text).imp
  intro earlier later isBefore one oneEq other otherEq
  obtain ⟨_, _, rfl⟩ := Option.map_eq_some_iff.1 oneEq
  obtain ⟨_, _, rfl⟩ := Option.map_eq_some_iff.1 otherEq
  exact isBefore

theorem mem_placementsFrom_append (before : List Char) (read : List Segment)
    (piece : Segment) (later : List Segment) :
    ⟨before ++ read.flatMap Segment.text, piece, later.flatMap Segment.text⟩ ∈
      placementsFrom before (read ++ piece :: later) := by
  induction read generalizing before with
  | nil =>
      rw [List.flatMap_nil, List.append_nil, List.nil_append, placementsFrom]
      exact List.mem_cons_self
  | cons first read ih =>
      rw [List.flatMap_cons, ← List.append_assoc, List.cons_append, placementsFrom]
      exact List.mem_cons_of_mem _ (ih (before ++ first.text))

/-! ## One segment -/

namespace Lexer

/-- `lexer.HasRead source file read left` says that a scan of `source` has read the
segments `read`, with `left` still to come. -/
structure HasRead (lexer : Lexer) (source : String) (file : Option String)
    (read : List Segment) (left : List Char) : Prop where
  segments_eq : segments source.toList = read ++ segments left
  scans : (ofSource source file).Scans read lexer
  splits : ∃ start taken, start ++ taken = read.flatMap Segment.text ∧
    lexer.cursor.Splits start taken left

section Reading

variable {lexer : Lexer} {source : String} {file : Option String} {read : List Segment}
  {left rest : List Char} {first : Char}

theorem hasRead_ofSource (source : String) (file : Option String) :
    (ofSource source file).HasRead source file [] source.toList :=
  ⟨rfl, .nil _, [], [], rfl, Cursor.splits_ofSource source⟩

theorem HasRead.source_eq (hasRead : lexer.HasRead source file read left) :
    lexer.cursor.source = source := by
  obtain ⟨start, taken, readEq, splits⟩ := hasRead.splits
  rw [← String.toList_inj, splits.whole, readEq]
  calc
    read.flatMap Segment.text ++ left =
        (read ++ segments left).flatMap Segment.text := by
      rw [List.flatMap_append, flatMap_text_segments]
    _ = source.toList := by rw [← hasRead.segments_eq, flatMap_text_segments]

theorem HasRead.line_eq (hasRead : lexer.HasRead source file read left) :
    lexer.line = lineAfter 1 (read.flatMap Segment.text) :=
  hasRead.scans.line_eq

theorem HasRead.exists_cons (hasRead : lexer.HasRead source file read left)
    (going : lexer.cursor.atEnd = false) : ∃ first rest, left = first :: rest := by
  obtain ⟨start, taken, -, splits⟩ := hasRead.splits
  rw [splits.atEnd_eq, List.isEmpty_eq_false_iff] at going
  exact List.exists_cons_of_ne_nil going

/-- A step of a scan reads one segment of the text and logs what that segment gives, with
the start of the lexeme at the segment's offset. -/
theorem HasRead.exists_scanSegment
    (hasRead : lexer.HasRead source file read (first :: rest)) :
    ∃ after place, lexer.scanSegment = .ok after ∧ place ∈ placements source.toList ∧
      place.piece = (Segment.cut first rest).1 ∧
      after.HasRead source file (read ++ [place.piece]) (Segment.cut first rest).2 ∧
      after.cursor.start = place.offset ∧
      after.log.toList =
        lexer.log.toList ++ (place.event? (file.getD defaultLabel)).toList := by
  obtain ⟨start, taken, readEq, splits⟩ := hasRead.splits
  obtain ⟨after, scanned, scans, afterSplits⟩ := Lexer.exists_scanSegment splits
  have segmentsEq := hasRead.segments_eq
  rw [segments_cons] at segmentsEq
  refine ⟨after, ⟨read.flatMap Segment.text, (Segment.cut first rest).1,
    (segments (Segment.cut first rest).2).flatMap Segment.text⟩, scanned, ?_, rfl, ?_, ?_, ?_⟩
  · rw [placements, segmentsEq]
    exact mem_placementsFrom_append [] read _ _
  · refine ⟨?_, hasRead.scans.append scans, _, _, ?_, afterSplits⟩
    · rw [segmentsEq, List.append_assoc, List.singleton_append]
    · rw [readEq, List.flatMap_append, List.flatMap_singleton]
  · rw [afterSplits.start_eq, readEq]
    rfl
  · rw [scans.log_eq, hasRead.scans.label_eq, hasRead.line_eq, eventsFrom_cons,
      eventsFrom_nil, List.append_nil]
    rfl

/-! ## The whole text -/

/-- A scan of all that is left has read every segment of the text at its end. -/
theorem HasRead.exists_scanAll (hasRead : lexer.HasRead source file read left) :
    ∃ last, lexer.scanAll = .ok last ∧
      last.HasRead source file (segments source.toList) [] := by
  induction left using segments_induction generalizing lexer read with
  | empty =>
      obtain ⟨start, taken, -, splits⟩ := hasRead.splits
      have ended : lexer.cursor.atEnd = true := splits.atEnd_eq
      have readAll : segments source.toList = read := by
        rw [hasRead.segments_eq, segments_nil, List.append_nil]
      refine ⟨lexer, ?_, ?_⟩
      · rw [scanAll, if_pos ended]
      · rw [readAll]
        exact hasRead
  | step first rest ih =>
      obtain ⟨start, taken, -, splits⟩ := hasRead.splits
      obtain ⟨after, place, scanned, -, -, afterRead, -, -⟩ := hasRead.exists_scanSegment
      obtain ⟨last, scannedAll, lastRead⟩ := ih afterRead
      exact ⟨last, (scanAll_of_scanSegment splits scanned).trans scannedAll, lastRead⟩

theorem Reachable.exists_hasRead (reachable : Reachable source file lexer) :
    ∃ read left, lexer.HasRead source file read left := by
  induction reachable with
  | initial => exact ⟨[], source.toList, hasRead_ofSource source file⟩
  | step _ going scanned ih =>
      obtain ⟨read, left, hasRead⟩ := ih
      obtain ⟨first, rest, rfl⟩ := hasRead.exists_cons going
      obtain ⟨after, place, afterEq, -, -, afterRead, -, -⟩ := hasRead.exists_scanSegment
      rw [scanned] at afterEq
      cases afterEq
      exact ⟨_, _, afterRead⟩

end Reading

end Lexer

/-! ## The records -/

section Records

open Trace (Record)

theorem length_filterMap_events (log : List Event) :
    (log.filterMap Event.token?).length + (log.filterMap Event.diagnostic?).length =
      log.length := by
  induction log with
  | nil => rfl
  | cons event log ih =>
      rw [List.length_cons, ← ih]
      cases event with
      | token found =>
          change (_ :: log.filterMap Event.token?).length + _ = _
          rw [List.length_cons]
          exact Nat.succ_add _ _
      | diagnostic found => rfl

theorem map_snd_entries (source : String) (label : String) :
    ((placements source.toList).filterMap (Placement.entry? label)).map Prod.snd =
      events source label := by
  rw [List.map_filterMap, events_eq_filterMap]
  congr 1
  funext place
  rw [Placement.entry?, Option.map_map]
  exact Option.map_id_apply

/-- A trace has one record for each event of the text, and after them the sizes of what
the scan returns. -/
theorem trace_eq (source : String) (file : Option String) :
    trace source file =
      .ok ((events source (file.getD defaultLabel)).map Record.event ++
        [.summary ⟨file.getD defaultLabel, source.utf8ByteSize,
          (tokenize source file).tokens.length,
          (tokenize source file).diagnostics.length⟩]) := by
  obtain ⟨last, scannedAll, lastRead⟩ := (Lexer.hasRead_ofSource source file).exists_scanAll
  have found : last.found = tokenize source file := by
    have scanned := Lexer.scanTokens_ofSource source file
    rw [Lexer.scanTokens, scannedAll] at scanned
    exact Except.ok.inj scanned
  have labelEq : last.label = file.getD defaultLabel := lastRead.scans.label_eq
  have logEq : last.log.toList = events source (file.getD defaultLabel) :=
    lastRead.scans.log_eq
  rw [trace, scannedAll]
  change Except.ok (last.log.toList.map Record.event ++ [.summary (.ofLexer last)]) = _
  rw [Trace.Summary.ofLexer, logEq, labelEq, found, lastRead.source_eq]

theorem filterMap_token?_events (source : String) (file : Option String) :
    (events source (file.getD defaultLabel)).filterMap Event.token? =
      (tokenize source file).tokens.filter (·.kind ≠ .endOfText) := by
  have othersKept : ∀ token ∈ (tokenize source file).tokens.dropLast,
      decide (token.kind ≠ .endOfText) = true := by
    intro token member
    exact decide_eq_true (kind_ne_endOfText_of_mem_dropLast member)
  rw [dropLast_tokens_tokenize] at othersKept
  have lastDropped (line : UInt32) :
      [Token.endOfText line].filter (·.kind ≠ .endOfText) = [] := rfl
  rw [tokenize, List.filter_append, List.filter_eq_self.2 othersKept, lastDropped,
    List.append_nil]

theorem length_tokens_tokenize (source : String) (file : Option String) :
    (tokenize source file).tokens.length =
      ((tokenize source file).tokens.filter (·.kind ≠ .endOfText)).length + 1 := by
  rw [← filterMap_token?_events, tokenize, List.length_append, List.length_singleton]

theorem file_of_mem_diagnostics {source : String} {file : Option String}
    {diagnostic : Diagnostic} (member : diagnostic ∈ (tokenize source file).diagnostics) :
    diagnostic.position.file = file.getD defaultLabel := by
  rw [diagnostics_tokenize] at member
  obtain ⟨place, _, isDiagnostic⟩ := List.mem_filterMap.1 member
  obtain ⟨_, _, rfl⟩ := Option.map_eq_some_iff.1 isDiagnostic
  rfl

/-- What a field of the records says, if only the records of one kind of events have it. -/
theorem filterMap_lookup {α : Type} {field : String} {read : Event → Option α}
    {text : α → String}
    (shows : ∀ event, (Record.event event).fields.lookup field = (read event).map text)
    (log : List Event) :
    (log.map Record.event).filterMap (fun record => record.fields.lookup field) =
      (log.filterMap read).map text := by
  rw [List.filterMap_map, List.map_filterMap]
  congr 1
  funext event
  exact shows event

/-- A trace is one record for each token but that of the end, and one for each diagnostic,
by increasing offset, and then the sizes of what the scan returns. Each step of the scan
logs what the segment gives that it reads. -/
theorem trace_records (source : String) (file : Option String) :
    let label := file.getD "shell"
    let scan := tokenize source file
    let tokens := scan.tokens.filter (·.kind ≠ .endOfText)
    let entries := (placements source.toList).filterMap (Placement.entry? label)
    let records := entries.map fun entry => Record.event entry.2
    let last := Record.summary
      ⟨label, source.utf8ByteSize, scan.tokens.length, scan.diagnostics.length⟩
    trace source file = .ok (records ++ [last]) ∧
    scan.tokens.length = tokens.length + 1 ∧
    (records ++ [last]).map Record.level =
      List.replicate (tokens.length + scan.diagnostics.length) .trace ++ [.debug] ∧
    last.fields =
      [("bytes", toString source.utf8ByteSize),
        ("errors", toString scan.diagnostics.length), ("file", label),
        ("message", "tokenized"), ("tokens", toString scan.tokens.length)] ∧
    entries.filterMap (fun entry => entry.2.token?) = tokens ∧
    records.filterMap (fun record => record.fields.lookup "token") =
      tokens.map Token.display ∧
    records.filterMap (fun record => record.fields.lookup "line") =
      tokens.map (fun token => toString token.line.toNat) ∧
    entries.filterMap (fun entry => entry.2.diagnostic?) = scan.diagnostics ∧
    records.filterMap (fun record => record.fields.lookup "error") =
      scan.diagnostics.map Diagnostic.display ∧
    (∀ place ∈ placements source.toList,
      place.before ++ (place.piece.text ++ place.after) = source.toList) ∧
    entries.Pairwise (fun earlier later => earlier.1 < later.1) ∧
    (∀ lexer : Lexer, Lexer.Reachable source file lexer → lexer.cursor.atEnd = false →
      ∃ after, ∃ place ∈ placements source.toList, lexer.scanSegment = .ok after ∧
        after.cursor.start = place.offset ∧
        after.log.toList = lexer.log.toList ++ (place.event? label).toList) ∧
    ∀ diagnostic ∈ scan.diagnostics, diagnostic.position.file = label := by
  intro label scan tokens entries records last
  have entryEvents : entries.map Prod.snd = events source label :=
    map_snd_entries source label
  have recordEvents : records = (events source label).map Record.event := by
    rw [← entryEvents, List.map_map]
    rfl
  have tokensEq : (events source label).filterMap Event.token? = tokens :=
    filterMap_token?_events source file
  have diagnosticsEq : (events source label).filterMap Event.diagnostic? = scan.diagnostics :=
    (diagnostics_eq_filterMap_events source file).symm
  have levels : records.map Record.level =
      List.replicate (tokens.length + scan.diagnostics.length) .trace := by
    rw [← tokensEq, ← diagnosticsEq, length_filterMap_events, recordEvents, List.map_map]
    exact List.map_const'
  refine ⟨?_, length_tokens_tokenize source file, ?_, rfl, ?_, ?_, ?_, ?_, ?_, ?_,
    pairwise_entries label source.toList, ?_, ?_⟩
  · rw [recordEvents]
    exact trace_eq source file
  · rw [List.map_append, levels]
    rfl
  · rw [← tokensEq, ← entryEvents, List.filterMap_map]
    rfl
  · rw [recordEvents, ← tokensEq]
    exact filterMap_lookup (fun event => by cases event <;> rfl) _
  · rw [recordEvents, ← tokensEq]
    exact filterMap_lookup (fun event => by cases event <;> rfl) _
  · rw [← diagnosticsEq, ← entryEvents, List.filterMap_map]
    rfl
  · rw [recordEvents, ← diagnosticsEq]
    exact filterMap_lookup (fun event => by cases event <;> rfl) _
  · intro place member
    exact before_append_of_mem_placements member
  · intro lexer reachable going
    obtain ⟨read, left, hasRead⟩ := reachable.exists_hasRead
    obtain ⟨first, rest, rfl⟩ := hasRead.exists_cons going
    obtain ⟨after, place, scanned, member, -, -, startEq, logEq⟩ :=
      hasRead.exists_scanSegment
    exact ⟨after, place, member, scanned, startEq, logEq⟩
  · intro diagnostic member
    exact file_of_mem_diagnostics member

end Records

end LoxScanner
