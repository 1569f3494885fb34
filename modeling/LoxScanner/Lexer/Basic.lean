import LoxScanner.Cursor
import LoxScanner.Scan

/-!
A lexer: a cursor of byte offsets into a text, and what has been found so far.

`Lexer.scanSegment` scans one segment. It reads the text only through the cursor, so
each of its steps may fault.
-/

namespace LoxScanner

/-- A scan under way. The log keeps tokens and diagnostics in the order in which they
were found. -/
structure Lexer where
  cursor : Cursor
  line : UInt32
  label : String
  tokens : Array Token
  diagnostics : Array Diagnostic
  log : Array Event

namespace Lexer

/-- A lexer at the start of a text. -/
def ofSource (source : String) (file : Option String) : Lexer :=
  ⟨.ofSource source, 1, file.getD defaultLabel, #[], #[], #[]⟩

def push (lexer : Lexer) (token : Token) : Lexer :=
  { lexer with
    tokens := lexer.tokens.push token
    log := lexer.log.push (.token token) }

def report (lexer : Lexer) (cause : Cause) (line : UInt32) : Lexer :=
  let diagnostic : Diagnostic := ⟨cause, ⟨line, lexer.label⟩⟩
  { lexer with
    diagnostics := lexer.diagnostics.push diagnostic
    log := lexer.log.push (.diagnostic diagnostic) }

/-! ## One segment -/

/-- Adds the token that `token` makes of the lexeme ending at a cursor. -/
def pushLexeme (lexer : Lexer) (cursor : Cursor) (token : String → Token) :
    Except Fault Lexer := do
  let text ← cursor.lexeme
  return { lexer with cursor }.push (token text)

/-- The token of a symbol on the lexer's line. -/
def symbolToken (lexer : Lexer) (mark : Symbol) (text : String) : Token :=
  ⟨.symbol mark, text, none, lexer.line⟩

/-- The token of a word on the lexer's line. -/
def wordToken (lexer : Lexer) (text : String) : Token :=
  ⟨.ofWord text.toList, text, none, lexer.line⟩

/-- The value of a text as a numeral, and zero for any other text. -/
def numeralValue (text : String) : Binary64 :=
  ((Numeral.ofText? text.toList).map Numeral.value).getD (.ofMagnitude 0)

/-- The token of a number on the lexer's line. -/
def numberToken (lexer : Lexer) (text : String) : Token :=
  ⟨.number, text, some (.number (numeralValue text)), lexer.line⟩

/-- Scans a string after its opening quote. -/
def scanString (lexer : Lexer) : Except Fault Lexer := do
  let body ← lexer.cursor.skipWhile (· ≠ quote)
  if body.atEnd then
    let contents ← slice body.source (body.start + 1) body.current
    let line := lineAfter lexer.line contents.toList
    return { lexer with cursor := body, line }.report
      (.unterminatedString contents) lexer.line
  else
    let (_, closed) ← body.next
    let contents ← slice closed.source (closed.start + 1) (closed.current - 1)
    let line := lineAfter lexer.line contents.toList
    { lexer with line }.pushLexeme closed fun text =>
      ⟨.string, text, some (.string contents), lexer.line⟩

/-- Moves a cursor over a point and the digits after it. A point without a digit
after it is left. -/
def skipFraction (cursor : Cursor) : Except Fault Cursor := do
  let point ← cursor.peek
  let digit ← cursor.peekNext
  if point = '.' ∧ digit.isDigit then
    let (_, fraction) ← cursor.next
    fraction.skipWhile Char.isDigit
  else return cursor

/-- Scans a number after its first digit. -/
def scanNumber (lexer : Lexer) : Except Fault Lexer := do
  let whole ← lexer.cursor.skipWhile Char.isDigit
  let cursor ← skipFraction whole
  lexer.pushLexeme cursor lexer.numberToken

/-- Scans a word after its first letter. -/
def scanWord (lexer : Lexer) : Except Fault Lexer := do
  let cursor ← lexer.cursor.skipWhile isWordChar
  lexer.pushLexeme cursor lexer.wordToken

/-- Scans a symbol, or the form of it with an equals sign, after its first
character. -/
def scanMark (lexer : Lexer) (mark : Symbol) : Except Fault Lexer :=
  match mark.withEqual? with
  | none => lexer.pushLexeme lexer.cursor (lexer.symbolToken mark)
  | some longer => do
      let (found, cursor) ← (Cursor.matchChar '=').outcome lexer.cursor
      lexer.pushLexeme cursor (lexer.symbolToken (if found then longer else mark))

/-- Scans a slash, or the comment that two slashes open, after the first slash. -/
def scanSlash (lexer : Lexer) : Except Fault Lexer := do
  let (found, cursor) ← (Cursor.matchChar '/').outcome lexer.cursor
  if found then
    let remark ← cursor.skipWhile (· ≠ lineFeed)
    return { lexer with cursor := remark }
  else lexer.pushLexeme cursor (lexer.symbolToken .slash)

/-- Scans the segment that starts with a character which the cursor has passed. -/
def scanAfter (lexer : Lexer) (first : Char) : Except Fault Lexer :=
  if first.isWhitespace then
    .ok { lexer with line := lineAfter lexer.line [first] }
  else if first = quote then lexer.scanString
  else if first.isDigit then lexer.scanNumber
  else if isWordStart first then lexer.scanWord
  else
    match Symbol.ofChar? first with
    | some .slash => lexer.scanSlash
    | some mark => lexer.scanMark mark
    | none => .ok (lexer.report (.unexpectedCharacter first) lexer.line)

/-- Scans one segment of the text. -/
def scanSegment (lexer : Lexer) : Except Fault Lexer := do
  let (first, cursor) ← lexer.cursor.mark.next
  { lexer with cursor }.scanAfter first

end Lexer

end LoxScanner
