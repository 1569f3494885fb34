/-!
Reading bytes as text, and the ways in which that fails.
-/

namespace LoxScanner

/-- Why a text cannot be read. -/
inductive ReadFailure
  | notFound
  | notADirectory
  | isADirectory
  | notUtf8
  /-- Any other failure, in the system's words and with its number. -/
  | other (reason : String) (code : Nat)
  deriving DecidableEq

namespace ReadFailure

private def systemMessage (reason : String) (code : Nat) : String :=
  reason ++ " (os error " ++ toString code ++ ")"

def message : ReadFailure → String
  | notFound => systemMessage "No such file or directory" 2
  | notADirectory => systemMessage "Not a directory" 20
  | isADirectory => systemMessage "Is a directory" 21
  | notUtf8 => "stream did not contain valid UTF-8"
  | other reason code => systemMessage reason code

end ReadFailure

/-- The text that bytes encode. Overlong forms and surrogates encode nothing. -/
def decodeText (bytes : List UInt8) : Except ReadFailure String :=
  match String.fromUTF8? bytes.toByteArray with
  | some text => .ok text
  | none => .error .notUtf8

end LoxScanner
