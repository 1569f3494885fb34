/-!
Lines of a text. A line ends at a line feed, and one carriage return at its end
belongs to the line's ending.
-/

namespace LoxScanner

def lineFeed : Char := '\n'

def carriageReturn : Char := '\r'

/-- A list without one `mark` at its end. -/
def dropAtEnd {α : Type} [DecidableEq α] (mark : α) (items : List α) : List α :=
  if items.getLast? = some mark then items.dropLast else items

/-- The lines of a list. Each `feed` ends a line, together with a `mark` directly before
it; what comes after the last `feed` is a line if it is not empty. -/
def linesOf {α : Type} [DecidableEq α] (feed mark : α) (items : List α) : List (List α) :=
  let pieces := items.splitOn feed
  let ended := pieces.dropLast.map (dropAtEnd mark)
  match pieces.getLast? with
  | none => ended
  | some rest => if rest = [] then ended else ended ++ [rest]

/-- A line without one carriage return at its end. -/
def dropReturn (line : List Char) : List Char :=
  dropAtEnd carriageReturn line

/-- The line of a text with a number counted from one. A text with `k` line
feeds has `k + 1` lines. -/
def line? (text : List Char) (number : Nat) : Option (List Char) :=
  match number with
  | 0 => none
  | index + 1 => (text.splitOn lineFeed)[index]?.map dropReturn

/-- The text before the first line feed, without the carriage return directly
before that line feed. In a text of one line nothing ends that line, and a
carriage return at its end stays. -/
def firstLine (text : List Char) : List Char :=
  let line := text.takeWhile (· ≠ lineFeed)
  if lineFeed ∈ text then dropReturn line else line

end LoxScanner
