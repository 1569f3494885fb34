import LoxScanner.Diagnostic
import LoxScanner.Text.Blank

/-!
The rows that show a diagnostic together with the line it points at.
-/

namespace LoxScanner

namespace Report

/-- The row that names the cause and gives its tip. -/
def header (cause : Cause) : String :=
  match cause.tip with
  | .none => "Error: " ++ cause.name
  | .suggestion words => "Error: " ++ cause.name ++ " (" ++ words ++ ")"

/-- A bar alone, under the bar that follows a line's number. -/
def bar (number : Nat) : String :=
  String.ofList (List.replicate ((Nat.toDigits 10 number).length + 1) ' ' ++ ['|'])

/-- A line's number, a bar, and the line without white space at its ends. -/
def sourceRow (number : Nat) (line : List Char) : String :=
  toString number ++ " | " ++ String.ofList (trim line)

/-- The rows of a report. A line that the text does not have is left out. -/
def rows (diagnostic : Diagnostic) (source : String) : List String :=
  let number := diagnostic.position.line.toNat
  let picture :=
    match line? source.toList number with
    | some line => [bar number, sourceRow number line, bar number]
    | none => []
  [header diagnostic.cause, "-> " ++ diagnostic.position.file] ++ picture

end Report

/-- The text of a list of rows, each ended by a line feed. -/
def unlines (rows : List String) : String :=
  String.join (rows.map (· ++ "\n"))

/-- The report of a diagnostic against the text that it is about. -/
def Diagnostic.render (diagnostic : Diagnostic) (source : String) : String :=
  unlines (Report.rows diagnostic source)

end LoxScanner
