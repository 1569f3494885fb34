import LoxScanner.Numeral
import LoxScanner.Token.Basic

/-!
Lexemes: the four shapes of text that become tokens.
-/

namespace LoxScanner

/-- A letter or an underscore. The language's letters are those of ASCII. -/
def isWordStart (c : Char) : Bool :=
  c.isAlpha || c == '_'

/-- A letter, a digit or an underscore. -/
def isWordChar (c : Char) : Bool :=
  c.isAlphanum || c == '_'

def quote : Char := '"'

/-- A text that becomes a token, by its shape. -/
inductive Lexeme
  | symbol (mark : Symbol)
  | word (text : List Char)
  | number (numeral : Numeral)
  | string (contents : List Char)
  deriving DecidableEq

namespace Lexeme

def text : Lexeme → List Char
  | symbol mark => mark.spelling
  | word letters => letters
  | number numeral => numeral.text
  | string contents => quote :: contents ++ [quote]

def kind : Lexeme → Token.Kind
  | symbol mark => .symbol mark
  | word letters => .ofWord letters
  | number _ => .number
  | string _ => .string

def literal? : Lexeme → Option Literal
  | symbol _ => none
  | word _ => none
  | number numeral => some (.number numeral.value)
  | string contents => some (.string (String.ofList contents))

/-- The token of a lexeme that starts on a line. -/
def token (lexeme : Lexeme) (line : UInt32) : Token :=
  ⟨lexeme.kind, String.ofList lexeme.text, lexeme.literal?, line⟩

/-- The longest symbol at the start of a text whose first character is a symbol,
and the rest. -/
def splitSymbol (mark : Symbol) (rest : List Char) : Symbol × List Char :=
  match mark.withEqual?, rest with
  | some longer, '=' :: others => (longer, others)
  | _, _ => (mark, rest)

theorem spelling_splitSymbol_append (mark : Symbol) (rest : List Char) :
    (splitSymbol mark rest).1.spelling ++ (splitSymbol mark rest).2 =
      mark.spelling ++ rest := by
  unfold splitSymbol
  split
  next longer others extended =>
    simp [Symbol.spelling_of_withEqual? extended]
  next => rfl

end Lexeme

end LoxScanner
