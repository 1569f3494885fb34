import LoxScanner.Text.Escape
import LoxScanner.Text.Lines
import LoxScanner.Text.Printable

/-!
Diagnostics: what is wrong with a text, where, and how to mend it.
-/

namespace LoxScanner

/-- A line, counted from one, of a named text. -/
structure Position where
  line : UInt32
  file : String
  deriving DecidableEq

/-- The position of what stands in no text. -/
def Position.unknown : Position :=
  ⟨0, "<null>"⟩

/-- What is wrong. -/
inductive Cause
  | unexpectedCharacter (character : Char)
  /-- A string without its closing quote, with the text after the opening one. -/
  | unterminatedString (contents : String)
  deriving DecidableEq

structure Diagnostic where
  cause : Cause
  position : Position
  deriving DecidableEq

namespace Cause

/-- A message shows a character as it is if it can be printed. -/
def messageStyle : EscapeStyle where
  short :=
    [('\x00', '0'), ('\t', 't'), ('\r', 'r'), ('\n', 'n'), ('\'', '\''), ('\\', '\\')]
  isPlain := isPrintable

/-- A tip shows no character outside ASCII as it is. -/
def tipStyle : EscapeStyle where
  short :=
    [('\t', 't'), ('\r', 'r'), ('\n', 'n'), ('\'', '\''), ('"', '"'), ('\\', '\\')]
  isPlain c := ' ' ≤ c && c ≤ '~'

def name : Cause → String
  | unexpectedCharacter _ => "UnexpectedCharacter"
  | unterminatedString _ => "UnterminatedString"

def message : Cause → String
  | unexpectedCharacter character =>
      "unexpected character '" ++
        String.ofList (messageStyle.escape character) ++ "'"
  | unterminatedString _ => "unterminated string"

end Cause

/-! ## Tips -/

/-- A way out of what is wrong, if there is one. -/
inductive Tip
  | none
  | suggestion (text : String)
  deriving DecidableEq

namespace Tip

def text : Tip → String
  | none => ""
  | suggestion words => words

end Tip

namespace Cause

/-- The tip for a cause. Of an open string's contents it quotes the first line. -/
def tip : Cause → Tip
  | unexpectedCharacter character =>
      .suggestion ("Unexpected character `" ++
        String.ofList (tipStyle.escape character) ++ "`")
  | unterminatedString contents =>
      if contents = "" then .suggestion "Missing closing `\"`"
      else
        .suggestion ("Missing closing `\"` after `" ++
          String.ofList (firstLine contents.toList) ++ "`")

end Cause

/-- The diagnostic on one row. -/
def Diagnostic.display (diagnostic : Diagnostic) : String :=
  "[line " ++ toString diagnostic.position.line.toNat ++ "] Error: " ++
    diagnostic.cause.message

end LoxScanner
