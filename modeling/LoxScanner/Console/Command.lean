import LoxScanner.Console.Path
import LoxScanner.Console.Prompt

/-!
The command line: a prompt without arguments, a file's scan with one.
-/

namespace LoxScanner

/-- What the arguments ask for. -/
inductive Command
  | prompt
  | file (path : String)
  | usage
  deriving DecidableEq

namespace Command

def ofArguments : List String → Command
  | [] => prompt
  | [path] => file path
  | _ => usage

def usageMessage : String := "Usage: lox [script]\n"

def failureMessage (path : String) (failure : ReadFailure) : String :=
  "Failed to read " ++ path ++ ": " ++ failure.message ++ "\n"

/-- Scans the file at a path whose contents, if they can be read, are given. -/
def scanFile (path : String) (contents : Except ReadFailure (List UInt8)) : Outcome :=
  match contents >>= decodeText with
  | .ok source =>
      let scan := tokenize source (some (Path.label path))
      ⟨scan.written source, if scan.diagnostics = [] then .success else .badData⟩
  | .error failure => ⟨⟨"", failureMessage path failure⟩, .noInput⟩

/-- Runs a command, given a way to read files and the standard input. -/
def run (read : String → Except ReadFailure (List UInt8)) (input : List UInt8) :
    Command → Outcome
  | prompt => Prompt.session input
  | file path => scanFile path (read path)
  | usage => ⟨⟨usageMessage, ""⟩, .usage⟩

end Command

end LoxScanner
