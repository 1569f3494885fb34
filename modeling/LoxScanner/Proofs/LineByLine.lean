import LoxScanner.Proofs.Composition
import LoxScanner.Proofs.InputLines

/-!
# Scanning line by line

A text none of whose lines leaves a string open has the events of its lines, each on
its own line. A carriage return at the end of a line is white space there, or belongs
to a comment, so the line has the same events without it.
-/

namespace LoxScanner

/-! ## A carriage return at the end -/

/-- The segments of a text with a carriage return after it. A comment goes on with it,
and so does an open string. -/
def absorbReturn : List Segment → List Segment
  | [] => [.space carriageReturn]
  | [.comment remark] => [.comment (remark ++ [carriageReturn])]
  | [.openString contents] => [.openString (contents ++ [carriageReturn])]
  | piece :: pieces => piece :: absorbReturn pieces

theorem absorbReturn_cons_cons (piece next : Segment) (others : List Segment) :
    absorbReturn (piece :: next :: others) = piece :: absorbReturn (next :: others) := by
  cases piece <;> rfl

theorem Segment.Longest.append_return {piece : Segment} {rest : List Char}
    (longest : piece.Longest rest) (goesOn : rest ≠ []) :
    piece.Longest (rest ++ [carriageReturn]) := by
  apply longest.of_run (prefix_takeWhile_append_cons rfl rest [])
  · rintro remark rfl c isHead
    obtain ⟨first, others, rfl⟩ := List.exists_cons_of_ne_nil goesOn
    exact longest.ends c isHead
  · intro isOpen
    exact absurd (longest.eq_nil_of_isOpen isOpen) goesOn

theorem tiling_return : Tiling Segment.Longest [.space carriageReturn] [carriageReturn] :=
  tiling_singleton (Or.inr (Or.inr (Or.inl rfl)))

theorem Segment.Longest.absorbReturn {piece : Segment} (longest : piece.Longest []) :
    Tiling Segment.Longest (absorbReturn [piece]) (piece.text ++ [carriageReturn]) := by
  obtain ⟨wellFormed, ends⟩ := longest
  cases piece with
  | lexeme found =>
      exact .cons ⟨wellFormed, Lexeme.EndsBefore.append_blank ends rfl⟩ tiling_return
  | space character => exact .cons ⟨wellFormed, trivial⟩ tiling_return
  | stray character => exact .cons ⟨wellFormed, trivial⟩ tiling_return
  | comment remark =>
      have absent : lineFeed ∉ remark := wellFormed
      have different : lineFeed ≠ carriageReturn := by decide
      have longer : (comment (remark ++ [carriageReturn])).WellFormed := by
        simp [WellFormed, absent, different]
      exact tiling_singleton longer
  | openString contents =>
      have absent : quote ∉ contents := wellFormed
      have different : quote ≠ carriageReturn := by decide
      have longer : (openString (contents ++ [carriageReturn])).WellFormed := by
        simp [WellFormed, absent, different]
      exact tiling_singleton longer

theorem Tiling.absorbReturn {pieces : List Segment} {text : List Char}
    (tiling : Tiling Segment.Longest pieces text) :
    Tiling Segment.Longest (absorbReturn pieces) (text ++ [carriageReturn]) := by
  induction tiling with
  | nil => exact tiling_return
  | @cons piece pieces rest longest tiling ih =>
      cases tiling with
      | nil =>
          rw [List.append_nil]
          exact longest.absorbReturn
      | @cons next others rest nextLongest _ =>
          have goesOn : next.text ++ rest ≠ [] := by
            intro empty
            exact Segment.text_ne_nil nextLongest.wellFormed (List.append_eq_nil_iff.1 empty).1
          rw [absorbReturn_cons_cons, List.append_assoc]
          exact .cons (longest.append_return goesOn) ih

theorem segments_append_return (text : List Char) :
    segments (text ++ [carriageReturn]) = absorbReturn (segments text) :=
  (segments_tiling text).absorbReturn.segments_eq

theorem closed_of_absorbReturn {pieces : List Segment}
    (closed : ∀ piece ∈ absorbReturn pieces, ¬ piece.IsOpen) :
    ∀ piece ∈ pieces, ¬ piece.IsOpen := by
  induction pieces with
  | nil => exact fun piece member => absurd member List.not_mem_nil
  | cons piece pieces ih =>
      cases pieces with
      | nil =>
          intro other member
          rw [List.mem_singleton.1 member]
          cases piece with
          | openString contents => exact absurd trivial (closed _ (List.mem_cons_self ..))
          | lexeme found => exact id
          | space character => exact id
          | comment remark => exact id
          | stray character => exact id
      | cons next others =>
          rw [absorbReturn_cons_cons] at closed
          obtain ⟨pieceClosed, othersClosed⟩ := List.forall_mem_cons.1 closed
          exact List.forall_mem_cons.2 ⟨pieceClosed, ih othersClosed⟩

theorem filterMap_event?_absorbReturn (label : String) (line : UInt32)
    {pieces : List Segment} (closed : ∀ piece ∈ pieces, ¬ piece.IsOpen) :
    (absorbReturn pieces).filterMap (Segment.event? label line) =
      pieces.filterMap (Segment.event? label line) := by
  induction pieces with
  | nil => rfl
  | cons piece pieces ih =>
      obtain ⟨pieceClosed, othersClosed⟩ := List.forall_mem_cons.1 closed
      cases pieces with
      | nil =>
          cases piece with
          | openString contents => exact absurd trivial pieceClosed
          | lexeme found => rfl
          | space character => rfl
          | comment remark => rfl
          | stray character => rfl
      | cons next others =>
          rw [absorbReturn_cons_cons, List.filterMap_cons, List.filterMap_cons,
            ih othersClosed]

/-! ## One line -/

/-- The events of a text that is all on one line. -/
def eventsOn (label : String) (line : UInt32) (text : List Char) : List Event :=
  (segments text).filterMap (Segment.event? label line)

theorem eventsFrom_eq_filterMap_of_oneLine (label : String) (line : UInt32)
    {pieces : List Segment} (oneLine : lineFeed ∉ pieces.flatMap Segment.text) :
    eventsFrom label line pieces = pieces.filterMap (Segment.event? label line) := by
  induction pieces with
  | nil => exact eventsFrom_nil label line
  | cons piece pieces ih =>
      rw [List.flatMap_cons, List.mem_append, not_or] at oneLine
      rw [eventsFrom_cons, lineAfter_of_not_mem oneLine.1, ih oneLine.2,
        List.filterMap_cons]
      cases piece.event? label line <;> rfl

theorem eventsFrom_segments_of_oneLine (label : String) (line : UInt32)
    {text : List Char} (oneLine : lineFeed ∉ text) :
    eventsFrom label line (segments text) = eventsOn label line text := by
  apply eventsFrom_eq_filterMap_of_oneLine
  rw [flatMap_text_segments]
  exact oneLine

/-- A line that leaves no string open has the same events without a carriage return
at its end, and leaves none open without it. -/
theorem dropReturn_of_closed {text : List Char}
    (closed : ∀ piece ∈ segments text, ¬ piece.IsOpen) :
    (∀ piece ∈ segments (dropReturn text), ¬ piece.IsOpen) ∧
      ∀ label line, eventsOn label line (dropReturn text) = eventsOn label line text := by
  rcases dropAtEnd_cases carriageReturn text with ends | same
  · have segmentsEq := segments_append_return (dropReturn text)
    rw [dropReturn, ← ends] at segmentsEq
    rw [segmentsEq] at closed
    have openFree := closed_of_absorbReturn closed
    refine ⟨openFree, ?_⟩
    intro label line
    rw [eventsOn, eventsOn, segmentsEq, filterMap_event?_absorbReturn label line openFree]
    rfl
  · rw [dropReturn, same]
    exact ⟨closed, fun _ _ => rfl⟩

/-! ## All lines -/

theorem eventsFrom_segments_line_append (label : String) (line : UInt32)
    {text : List Char} (oneLine : lineFeed ∉ text)
    (closed : ∀ piece ∈ segments text, ¬ piece.IsOpen) (others : List Char) :
    eventsFrom label line (segments (text ++ lineFeed :: others)) =
      eventsOn label line text ++ eventsFrom label (line + 1) (segments others) := by
  have single : lineCount text = 1 := by
    rw [lineCount, List.count_eq_zero_of_not_mem oneLine]
  rw [eventsFrom_segments_append_lineFeed label line closed,
    eventsFrom_segments_of_oneLine label line oneLine, single]
  rfl

/-- The events of a text, of which line `index + 1` comes first, are those of its lines
one after the other. -/
theorem eventsFrom_eq_flatMap_linesOf (label : String) (index : Nat) {text : List Char}
    (closed : ∀ piece ∈ text.splitOn lineFeed, ∀ found ∈ segments piece, ¬ found.IsOpen) :
    eventsFrom label (UInt32.ofNat (index + 1)) (segments text) =
      ((linesOf lineFeed carriageReturn text).zipIdx index).flatMap fun numbered =>
        eventsOn label (UInt32.ofNat (numbered.2 + 1)) numbered.1 := by
  induction text using lines_induction lineFeed generalizing index with
  | last line absent =>
      rw [linesOf_of_not_mem absent, eventsFrom_segments_of_oneLine label _ absent]
      -- An empty rest is no line, and has no events.
      by_cases isEmpty : line = []
      · rw [if_pos isEmpty, isEmpty, eventsOn, segments_nil]
        rfl
      · rw [if_neg isEmpty, List.zipIdx_singleton, List.flatMap_singleton]
  | step line rest absent ih =>
      rw [List.splitOn_append_cons_self_of_not_mem absent, List.forall_mem_cons] at closed
      obtain ⟨lineClosed, restClosed⟩ := closed
      have next : UInt32.ofNat (index + 1) + 1 = UInt32.ofNat (index + 1 + 1) :=
        (UInt32.ofNat_add _ _).symm
      have sameEvents : ∀ label line', eventsOn label line' (dropReturn line) =
          eventsOn label line' line := (dropReturn_of_closed lineClosed).2
      rw [linesOf_append_cons absent, List.zipIdx_cons, List.flatMap_cons,
        eventsFrom_segments_line_append label _ absent lineClosed, next,
        ih (index + 1) restClosed, ← sameEvents]
      rfl

/-! ## Scans of lines -/

def Token.onLine (line : UInt32) (token : Token) : Token :=
  { token with line }

def Diagnostic.moveTo (position : Position) (diagnostic : Diagnostic) : Diagnostic :=
  ⟨diagnostic.cause, position⟩

namespace Event

def moveTo (position : Position) : Event → Event
  | token found => token (found.onLine position.line)
  | diagnostic found => diagnostic (found.moveTo position)

theorem filterMap_token?_moveTo (position : Position) (found : List Event) :
    (found.map (moveTo position)).filterMap token? =
      (found.filterMap token?).map (Token.onLine position.line) :=
  filterMap_map (fun event => by cases event <;> rfl) found

theorem filterMap_diagnostic?_moveTo (position : Position) (found : List Event) :
    (found.map (moveTo position)).filterMap diagnostic? =
      (found.filterMap diagnostic?).map (Diagnostic.moveTo position) :=
  filterMap_map (fun event => by cases event <;> rfl) found

end Event

/-- The events of a line on its own, moved to its place. -/
theorem eventsOn_eq_map_moveTo (label other : String) (line first : UInt32)
    (text : List Char) :
    eventsOn label line text =
      (eventsOn other first text).map (Event.moveTo ⟨line, label⟩) := by
  rw [eventsOn, eventsOn, List.map_filterMap]
  congr 1
  funext piece
  cases piece <;> rfl

theorem events_ofList_of_oneLine {line : List Char} (oneLine : lineFeed ∉ line)
    (label : String) : events (String.ofList line) label = eventsOn label 1 line := by
  rw [events, String.toList_ofList, eventsFrom_segments_of_oneLine label 1 oneLine]

/-- The texts that a prompt scans one by one when it reads a text. -/
def Prompt.texts (source : String) : List String :=
  (linesOf lineFeed carriageReturn source.toList).map String.ofList

/-- If no line of a text leaves a string open, the events of the text are those of the
texts that a prompt scans, each moved to its line. -/
theorem events_eq_flatMap_texts (label : String) {source : String}
    (closed : ∀ piece ∈ source.toList.splitOn lineFeed,
      ∀ found ∈ segments piece, ¬ found.IsOpen) :
    events source label = (Prompt.texts source).zipIdx.flatMap fun numbered =>
      (events numbered.1 defaultLabel).map
        (Event.moveTo ⟨UInt32.ofNat (numbered.2 + 1), label⟩) := by
  have eventsEq := eventsFrom_eq_flatMap_linesOf label 0 closed
  have first : UInt32.ofNat (0 + 1) = 1 := rfl
  rw [first] at eventsEq
  rw [events, eventsEq, Prompt.texts, List.zipIdx_map, List.flatMap_map]
  apply List.flatMap_congr
  intro numbered member
  have oneLine : lineFeed ∉ numbered.1 :=
    not_mem_of_mem_linesOf (List.fst_mem_of_mem_zipIdx member)
  have alone : events (String.ofList numbered.1) defaultLabel =
      eventsOn defaultLabel 1 numbered.1 := events_ofList_of_oneLine oneLine defaultLabel
  rw [eventsOn_eq_map_moveTo label defaultLabel _ 1, ← alone]
  rfl

theorem tokens_eq_flatMap_texts (file : Option String) {source : String}
    (closed : ∀ piece ∈ source.toList.splitOn lineFeed,
      ∀ found ∈ segments piece, ¬ found.IsOpen) :
    (tokenize source file).tokens.dropLast =
      (Prompt.texts source).zipIdx.flatMap fun numbered =>
        (tokenize numbered.1 none).tokens.dropLast.map
          (Token.onLine (UInt32.ofNat (numbered.2 + 1))) := by
  rw [dropLast_tokens_tokenize, events_eq_flatMap_texts _ closed, List.filterMap_flatMap]
  apply List.flatMap_congr
  intro numbered _
  rw [Event.filterMap_token?_moveTo, dropLast_tokens_tokenize]
  rfl

theorem diagnostics_eq_flatMap_texts (file : Option String) {source : String}
    (closed : ∀ piece ∈ source.toList.splitOn lineFeed,
      ∀ found ∈ segments piece, ¬ found.IsOpen) :
    (tokenize source file).diagnostics =
      (Prompt.texts source).zipIdx.flatMap fun numbered =>
        (tokenize numbered.1 none).diagnostics.map
          (Diagnostic.moveTo ⟨UInt32.ofNat (numbered.2 + 1), file.getD defaultLabel⟩) := by
  rw [diagnostics_eq_filterMap_events, events_eq_flatMap_texts _ closed,
    List.filterMap_flatMap]
  apply List.flatMap_congr
  intro numbered _
  rw [Event.filterMap_diagnostic?_moveTo]
  rfl

end LoxScanner
