import LoxScanner.Diagnostic
import LoxScanner.Segment

/-!
Scanning a text into tokens and diagnostics.

The text's segments, each with the line on which it starts, give events in the
order of the text; a scan keeps the tokens and the diagnostics among them.
-/

namespace LoxScanner

/-- The label of a text that comes from no file. -/
def defaultLabel : String := "shell"

/-- What a scan finds at one place of a text. -/
inductive Event
  | token (token : Token)
  | diagnostic (diagnostic : Diagnostic)
  deriving DecidableEq

namespace Event

def token? : Event → Option Token
  | token found => some found
  | diagnostic _ => none

def diagnostic? : Event → Option Diagnostic
  | token _ => none
  | diagnostic found => some found

end Event

/-- The tokens and diagnostics of a text, each in the order of the text. -/
structure Scan where
  tokens : List Token
  diagnostics : List Diagnostic
  deriving DecidableEq

/-! ## Lines -/

/-- The line after a text that starts on `line`. The count is a 32-bit word. -/
def lineAfter (line : UInt32) (text : List Char) : UInt32 :=
  line + UInt32.ofNat (text.count lineFeed)

/-- The line on which each segment starts. -/
def startLines (line : UInt32) (pieces : List Segment) : List UInt32 :=
  pieces.scanl (fun current piece => lineAfter current piece.text) line

@[simp]
theorem startLines_nil (line : UInt32) : startLines line [] = [line] := by
  simp [startLines]

@[simp]
theorem startLines_cons (line : UInt32) (piece : Segment) (pieces : List Segment) :
    startLines line (piece :: pieces) =
      line :: startLines (lineAfter line piece.text) pieces := by
  simp [startLines]

/-! ## Events -/

/-- What a segment that starts on a line gives. White space and comments give
nothing. -/
def Segment.event? (label : String) (line : UInt32) : Segment → Option Event
  | lexeme found => some (.token (found.token line))
  | space _ => none
  | comment _ => none
  | stray character =>
      some (.diagnostic ⟨.unexpectedCharacter character, ⟨line, label⟩⟩)
  | openString contents =>
      some (.diagnostic ⟨.unterminatedString (String.ofList contents), ⟨line, label⟩⟩)

/-- The events of segments of which the first starts on `line`. -/
def eventsFrom (label : String) (line : UInt32) (pieces : List Segment) :
    List Event :=
  (List.zipWith (Segment.event? label) (startLines line pieces) pieces).filterMap id

@[simp]
theorem eventsFrom_nil (label : String) (line : UInt32) :
    eventsFrom label line [] = [] := by
  simp [eventsFrom]

theorem eventsFrom_cons (label : String) (line : UInt32) (piece : Segment)
    (pieces : List Segment) :
    eventsFrom label line (piece :: pieces) =
      (piece.event? label line).toList ++
        eventsFrom label (lineAfter line piece.text) pieces := by
  unfold eventsFrom
  rw [startLines_cons, List.zipWith_cons_cons]
  cases piece.event? label line <;> simp

/-- The events of a text in order. -/
def events (source : String) (label : String) : List Event :=
  eventsFrom label 1 (segments source.toList)

/-- The tokens of a text, closed by the token of its end, and its diagnostics. -/
def tokenize (source : String) (file : Option String) : Scan :=
  let found := events source (file.getD defaultLabel)
  ⟨found.filterMap Event.token? ++ [.endOfText (lineAfter 1 source.toList)],
    found.filterMap Event.diagnostic?⟩

end LoxScanner
