import LoxScanner.Lexer.Scan

/-!
The records of a scan: one for each event that the lexer logs, and a summary at the
end.
-/

namespace LoxScanner

namespace Trace

inductive Level
  | trace
  | debug
  deriving DecidableEq

def Level.name : Level → String
  | .trace => "TRACE"
  | .debug => "DEBUG"

/-- The sizes of a finished scan. -/
structure Summary where
  file : String
  bytes : Nat
  tokens : Nat
  errors : Nat
  deriving DecidableEq

inductive Record
  | event (event : Event)
  | summary (summary : Summary)
  deriving DecidableEq

namespace Record

def level : Record → Level
  | event _ => .trace
  | summary _ => .debug

/-- The fields of a record by name. -/
def fields : Record → List (String × String)
  | event (.token token) =>
      [("line", toString token.line.toNat), ("message", "token"),
        ("token", token.display)]
  | event (.diagnostic diagnostic) =>
      [("error", diagnostic.display), ("message", "diagnostic")]
  | summary sizes =>
      [("bytes", toString sizes.bytes), ("errors", toString sizes.errors),
        ("file", sizes.file), ("message", "tokenized"),
        ("tokens", toString sizes.tokens)]

end Record

/-- The summary of a lexer that has come to the end of its text. -/
def Summary.ofLexer (lexer : Lexer) : Summary :=
  let scan := lexer.found
  ⟨lexer.label, lexer.cursor.source.utf8ByteSize, scan.tokens.length,
    scan.diagnostics.length⟩

end Trace

/-- The records of scanning a text, in order. -/
def trace (source : String) (file : Option String) :
    Except Fault (List Trace.Record) := do
  let last ← (Lexer.ofSource source file).scanAll
  return last.log.toList.map Trace.Record.event ++ [.summary (.ofLexer last)]

end LoxScanner
