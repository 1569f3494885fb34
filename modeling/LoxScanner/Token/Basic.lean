import LoxScanner.Number.Layout
import LoxScanner.Token.Kind

/-!
Tokens, their text in a listing, and their equality.
-/

namespace LoxScanner

/-- The value that a string or number token carries. -/
inductive Literal
  | string (text : String)
  | number (value : Binary64)
  deriving DecidableEq

namespace Literal

def text : Literal → String
  | string contents => contents
  | number value => value.text

/-- Equality of literals, with numbers compared as numbers. -/
def agrees : Literal → Literal → Bool
  | string left, string right => left == right
  | number left, number right => left.numericEq right
  | _, _ => false

end Literal

/-- A token with the text it was read from and the line on which it starts. -/
structure Token where
  kind : Token.Kind
  lexeme : String
  literal : Option Literal
  line : UInt32
  deriving DecidableEq

namespace Token

/-- What a listing shows for a missing literal. -/
def missingLiteral : String := "null"

def literalText (token : Token) : String :=
  (token.literal.map Literal.text).getD missingLiteral

/-- The token's row in a listing. -/
def display (token : Token) : String :=
  token.kind.name ++ " " ++ token.lexeme ++ " " ++ token.literalText

/-- Whether the lexeme is the reserved word of the token's own kind. -/
def isKeyword (token : Token) : Bool :=
  (Keyword.ofText? token.lexeme.toList).map Kind.keyword == some token.kind

def isOneOf (token : Token) (kinds : List Kind) : Bool :=
  kinds.contains token.kind

/-- Equality of tokens, with numbers compared as numbers. -/
def agrees (left right : Token) : Bool :=
  left.kind == right.kind && left.lexeme == right.lexeme &&
    (match left.literal, right.literal with
      | none, none => true
      | some one, some other => one.agrees other
      | _, _ => false) &&
    left.line == right.line

/-- The token that closes every scan. -/
def endOfText (line : UInt32) : Token :=
  ⟨.endOfText, "", none, line⟩

end Token

end LoxScanner
