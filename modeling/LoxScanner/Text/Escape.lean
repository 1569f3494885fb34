/-!
Characters written as escapes. A style names the characters with a short escape
and those written as they are; every other character is written by its code point.
-/

namespace LoxScanner

/-- A way of writing characters. -/
structure EscapeStyle where
  /-- Characters with a short escape, each with the letter after the backslash. -/
  short : List (Char × Char)
  isPlain : Char → Bool

/-- A code point in braces, in hexadecimal without leading zeros. -/
def codePointEscape (c : Char) : List Char :=
  ['\\', 'u', '\x7b'] ++ Nat.toDigits 16 c.toNat ++ ['\x7d']

def EscapeStyle.escape (style : EscapeStyle) (c : Char) : List Char :=
  match style.short.lookup c with
  | some letter => ['\\', letter]
  | none => if style.isPlain c then [c] else codePointEscape c

end LoxScanner
