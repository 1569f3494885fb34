import LoxScanner.Console.Outcome
import LoxScanner.Console.Reading
import LoxScanner.Text.Lines

/-!
A session at the prompt. Each line of the input is scanned alone, and nothing wrong
in a line ends the session but bytes that are not text.
-/

namespace LoxScanner

namespace Prompt

/-- What asks for a line. -/
def mark : String := "> "

def lineFeedByte : UInt8 := 10

def carriageReturnByte : UInt8 := 13

/-- The lines of an input. -/
def lines (input : List UInt8) : List (List UInt8) :=
  linesOf lineFeedByte carriageReturnByte input

def failureMessage (failure : ReadFailure) : String :=
  "Failed to read input: " ++ failure.message ++ "\n"

/-- What is written about one line. -/
def reply (line : List UInt8) : Except ReadFailure Written := do
  let source ← decodeText line
  return (tokenize source none).written source

/-- A session that has written something, continued with the lines still to come. -/
def resume (before : Written) : List (List UInt8) → Outcome
  | [] => ⟨before ++ ⟨mark ++ "\n", ""⟩, .success⟩
  | line :: others =>
      let asked := before ++ ⟨mark, ""⟩
      match reply line with
      | .ok written => resume (asked ++ written) others
      | .error failure => ⟨asked ++ ⟨"", failureMessage failure⟩, .noInput⟩

/-- The session that an input makes. -/
def session (input : List UInt8) : Outcome :=
  resume .nothing (lines input)

end Prompt

end LoxScanner
