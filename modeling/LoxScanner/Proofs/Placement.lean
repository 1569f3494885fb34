import LoxScanner.Proofs.Tiling
import LoxScanner.Scan

/-!
# Where the segments of a scan stand

A placement is a segment of a text with the text on both its sides. The tokens and
diagnostics of a scan are read off the placements in order, each with the line
that the text before it gives.
-/

namespace LoxScanner

/-- A segment with the text before it and the text after it. -/
structure Placement where
  before : List Char
  piece : Segment
  after : List Char

/-- The placements of segments that tile what follows a text. -/
def placementsFrom (before : List Char) : List Segment → List Placement
  | [] => []
  | piece :: pieces =>
      ⟨before, piece, pieces.flatMap Segment.text⟩ ::
        placementsFrom (before ++ piece.text) pieces

/-- The segments of a text, each with the text before it and after it. -/
def placements (text : List Char) : List Placement :=
  placementsFrom [] (segments text)

theorem map_piece_placementsFrom (before : List Char) (pieces : List Segment) :
    (placementsFrom before pieces).map Placement.piece = pieces := by
  induction pieces generalizing before with
  | nil => rfl
  | cons piece pieces ih => rw [placementsFrom, List.map_cons, ih]

theorem map_piece_placements (text : List Char) :
    (placements text).map Placement.piece = segments text :=
  map_piece_placementsFrom [] (segments text)

private theorem mem_placementsFrom {before text : List Char} {pieces : List Segment}
    {place : Placement} (tiling : Tiling Segment.Longest pieces text)
    (member : place ∈ placementsFrom before pieces) :
    place.before ++ (place.piece.text ++ place.after) = before ++ text ∧
      place.piece.Longest place.after := by
  induction tiling generalizing before with
  | nil => cases member
  | @cons piece pieces rest longest tiling ih =>
      rcases List.mem_cons.1 member with rfl | later
      · rw [tiling.flatMap_text]
        exact ⟨rfl, longest⟩
      · obtain ⟨whole, laterLongest⟩ := ih later
        exact ⟨whole.trans (List.append_assoc _ _ _), laterLongest⟩

theorem before_append_of_mem_placements {text : List Char} {place : Placement}
    (member : place ∈ placements text) :
    place.before ++ (place.piece.text ++ place.after) = text :=
  (mem_placementsFrom (segments_tiling text) member).1

theorem longest_of_mem_placements {text : List Char} {place : Placement}
    (member : place ∈ placements text) : place.piece.Longest place.after :=
  (mem_placementsFrom (segments_tiling text) member).2

theorem filterMap_placements {α : Type} (text : List Char)
    (read : Segment → Option α) :
    (placements text).filterMap (fun place => read place.piece) =
      (segments text).filterMap read := by
  rw [← map_piece_placements, List.filterMap_map]
  rfl

theorem wellFormed_of_mem_segments {text : List Char} {piece : Segment}
    (member : piece ∈ segments text) : piece.WellFormed := by
  rw [← map_piece_placements] at member
  obtain ⟨place, placeMember, rfl⟩ := List.mem_map.1 member
  exact (longest_of_mem_placements placeMember).wellFormed

/-! ## Tokens and diagnostics -/

namespace Segment

def lexeme? : Segment → Option Lexeme
  | lexeme found => some found
  | _ => none

theorem lexeme?_eq_some_iff {piece : Segment} {found : Lexeme} :
    piece.lexeme? = some found ↔ piece = lexeme found := by
  cases piece <;> simp [lexeme?]

/-- What is wrong with a segment. -/
def cause? : Segment → Option Cause
  | stray character => some (.unexpectedCharacter character)
  | openString contents => some (.unterminatedString (String.ofList contents))
  | _ => none

end Segment

theorem wellFormed_of_mem_lexemes {text : List Char} {found : Lexeme}
    (member : found ∈ (segments text).filterMap Segment.lexeme?) : found.WellFormed := by
  obtain ⟨piece, pieceMember, isLexeme⟩ := List.mem_filterMap.1 member
  rw [Segment.lexeme?_eq_some_iff.1 isLexeme] at pieceMember
  exact wellFormed_of_mem_segments pieceMember

namespace Placement

def line (place : Placement) : UInt32 :=
  lineAfter 1 place.before

def token? (place : Placement) : Option Token :=
  place.piece.lexeme?.map fun found => found.token place.line

def diagnostic? (label : String) (place : Placement) : Option Diagnostic :=
  place.piece.cause?.map fun cause => ⟨cause, ⟨place.line, label⟩⟩

theorem exists_lexeme_of_token? {token : Token} (place : Placement)
    (isToken : place.token? = some token) :
    ∃ found : Lexeme, place.piece = .lexeme found ∧ token = found.token place.line := by
  obtain ⟨found, isLexeme, tokenEq⟩ := Option.map_eq_some_iff.1 isToken
  exact ⟨found, Segment.lexeme?_eq_some_iff.1 isLexeme, tokenEq.symm⟩

end Placement

theorem lineAfter_lineAfter (line : UInt32) (earlier later : List Char) :
    lineAfter (lineAfter line earlier) later = lineAfter line (earlier ++ later) := by
  simp [lineAfter, UInt32.add_assoc]

private theorem token?_event? (label : String) (line : UInt32) (piece : Segment) :
    (piece.event? label line).bind Event.token? =
      piece.lexeme?.map fun found => found.token line := by
  cases piece <;> rfl

private theorem diagnostic?_event? (label : String) (line : UInt32)
    (piece : Segment) :
    (piece.event? label line).bind Event.diagnostic? =
      piece.cause?.map fun cause => ⟨cause, ⟨line, label⟩⟩ := by
  cases piece <;> rfl

/-- The events of segments that follow a text are those of their placements. -/
theorem eventsFrom_eq_filterMap (label : String) (before : List Char)
    (pieces : List Segment) :
    eventsFrom label (lineAfter 1 before) pieces =
      (placementsFrom before pieces).filterMap fun place =>
        place.piece.event? label place.line := by
  induction pieces generalizing before with
  | nil => simp [placementsFrom]
  | cons piece pieces ih =>
      rw [eventsFrom_cons, lineAfter_lineAfter, ih, placementsFrom,
        List.filterMap_cons]
      simp only [Placement.line]
      cases piece.event? label (lineAfter 1 before) <;> rfl

theorem lineAfter_nil (line : UInt32) : lineAfter line [] = line := by
  simp [lineAfter]

theorem eventsFrom_append (label : String) (line : UInt32)
    (pieces more : List Segment) :
    eventsFrom label line (pieces ++ more) =
      eventsFrom label line pieces ++
        eventsFrom label (lineAfter line (pieces.flatMap Segment.text)) more := by
  induction pieces generalizing line with
  | nil => simp [lineAfter_nil]
  | cons piece pieces ih =>
      rw [List.cons_append, eventsFrom_cons, eventsFrom_cons, ih, List.append_assoc,
        lineAfter_lineAfter, List.flatMap_cons]

theorem events_eq_filterMap (source : String) (label : String) :
    events source label =
      (placements source.toList).filterMap fun place =>
        place.piece.event? label place.line := by
  have found := eventsFrom_eq_filterMap label [] (segments source.toList)
  rw [lineAfter_nil] at found
  exact found

theorem tokens_tokenize (source : String) (file : Option String) :
    (tokenize source file).tokens =
      (placements source.toList).filterMap Placement.token? ++
        [.endOfText (lineAfter 1 source.toList)] := by
  unfold tokenize
  simp only [events_eq_filterMap, List.filterMap_filterMap, token?_event?]
  rfl

theorem diagnostics_tokenize (source : String) (file : Option String) :
    (tokenize source file).diagnostics =
      (placements source.toList).filterMap
        (Placement.diagnostic? (file.getD defaultLabel)) := by
  unfold tokenize
  simp only [events_eq_filterMap, List.filterMap_filterMap, diagnostic?_event?]
  rfl

theorem dropLast_tokens_tokenize (source : String) (file : Option String) :
    (tokenize source file).tokens.dropLast =
      (events source (file.getD defaultLabel)).filterMap Event.token? :=
  List.dropLast_concat

theorem diagnostics_eq_filterMap_events (source : String) (file : Option String) :
    (tokenize source file).diagnostics =
      (events source (file.getD defaultLabel)).filterMap Event.diagnostic? :=
  rfl

/-- The tokens that a scan can give: one of a well-formed lexeme, or that of the end. -/
inductive Token.Scanned : Token → Prop
  | lexeme {found : Lexeme} (wellFormed : found.WellFormed) (line : UInt32) :
      Scanned (found.token line)
  | endOfText (line : UInt32) : Scanned (.endOfText line)

theorem scanned_of_mem_tokens {source : String} {file : Option String} {token : Token}
    (member : token ∈ (tokenize source file).tokens) : token.Scanned := by
  rw [tokens_tokenize, List.mem_append, List.mem_singleton] at member
  rcases member with ofLexeme | rfl
  · obtain ⟨place, placeMember, isToken⟩ := List.mem_filterMap.1 ofLexeme
    obtain ⟨found, isLexeme, rfl⟩ := place.exists_lexeme_of_token? isToken
    have wellFormed := (longest_of_mem_placements placeMember).wellFormed
    rw [isLexeme] at wellFormed
    exact .lexeme wellFormed place.line
  · exact .endOfText _

/-- What a token says, whatever its line. -/
def Token.content (token : Token) : Token.Kind × String × Option Literal :=
  (token.kind, token.lexeme, token.literal)

def Lexeme.content (found : Lexeme) : Token.Kind × String × Option Literal :=
  (found.kind, String.ofList found.text, found.literal?)

theorem map_content_tokens_tokenize (source : String) (file : Option String) :
    (tokenize source file).tokens.map Token.content =
      ((segments source.toList).filterMap Segment.lexeme?).map Lexeme.content ++
        [(.endOfText, "", none)] := by
  rw [tokens_tokenize, List.map_append, List.map_filterMap, List.map_filterMap,
    ← filterMap_placements]
  congr 2
  funext place
  simp only [Placement.token?, Option.map_map]
  rfl

theorem map_cause_diagnostics_tokenize (source : String) (file : Option String) :
    (tokenize source file).diagnostics.map Diagnostic.cause =
      (segments source.toList).filterMap Segment.cause? := by
  rw [diagnostics_tokenize, List.map_filterMap, ← filterMap_placements]
  congr 1
  funext place
  unfold Placement.diagnostic?
  cases place.piece.cause? <;> rfl

end LoxScanner
