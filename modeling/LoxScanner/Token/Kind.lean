import LoxScanner.Symbol
import LoxScanner.Keyword

/-!
The kinds of tokens.
-/

namespace LoxScanner

namespace Token

/-- What a token is. -/
inductive Kind
  | symbol (symbol : Symbol)
  | identifier
  | string
  | number
  | keyword (keyword : Keyword)
  | endOfText
  deriving DecidableEq, Repr

namespace Kind

/-- Every kind: symbols, literals, keywords, and the end of the text. -/
def all : List Kind :=
  Symbol.all.map symbol ++ [identifier, string, number] ++
    Keyword.all.map keyword ++ [endOfText]

theorem mem_all (kind : Kind) : kind ∈ all := by
  cases kind <;> simp [all, Symbol.mem_all, Keyword.mem_all]

def name : Kind → String
  | symbol mark => mark.name
  | identifier => "IDENTIFIER"
  | string => "STRING"
  | number => "NUMBER"
  | keyword word => word.name
  | endOfText => "EOF"

def ofName? (name : String) : Option Kind :=
  all.find? fun kind => kind.name == name

/-- The kind of a word: a keyword if the word is reserved. -/
def ofWord (word : List Char) : Kind :=
  match Keyword.ofText? word with
  | some reserved => keyword reserved
  | none => identifier

end Kind

end Token

end LoxScanner
