import LoxScanner.Lexeme
import LoxScanner.Text.Lines

/-!
Cutting a text into segments.

`Segment.cut` takes the longest segment at the start of a non-empty text, and
`segments` cuts the whole text. Nothing is lost on the way: the segments' texts
make up the text again (`flatMap_text_segments`).
-/

namespace LoxScanner

/-- A piece of a text. -/
inductive Segment
  | lexeme (lexeme : Lexeme)
  | space (character : Char)
  /-- A comment, with the text after its two slashes. -/
  | comment (remark : List Char)
  /-- A character that starts nothing. -/
  | stray (character : Char)
  /-- A string that the text's end leaves open, with the text after its quote. -/
  | openString (contents : List Char)
  deriving DecidableEq

namespace Segment

def text : Segment → List Char
  | lexeme found => found.text
  | space character => [character]
  | comment remark => '/' :: '/' :: remark
  | stray character => [character]
  | openString contents => quote :: contents

/-- The string whose opening quote stands before a text, and what follows it. -/
def cutString (text : List Char) : Segment × List Char :=
  let contents := text.takeWhile (· ≠ quote)
  match text.dropWhile (· ≠ quote) with
  | [] => (.openString contents, [])
  | _ :: rest => (.lexeme (.string contents), rest)

/-- The longest symbol that starts with `mark`, or the comment that two slashes
open. -/
def cutSymbol (mark : Symbol) (rest : List Char) : Segment × List Char :=
  match mark, rest with
  | .slash, '/' :: others =>
      (.comment (others.takeWhile (· ≠ lineFeed)), others.dropWhile (· ≠ lineFeed))
  | _, _ =>
      let found := Lexeme.splitSymbol mark rest
      (.lexeme (.symbol found.1), found.2)

/-- The first segment of the text `first :: rest`, and what follows it. -/
def cut (first : Char) (rest : List Char) : Segment × List Char :=
  if first.isWhitespace then (.space first, rest)
  else if first = quote then cutString rest
  else if first.isDigit then
    let found := Numeral.split (first :: rest)
    (.lexeme (.number found.1), found.2)
  else if isWordStart first then
    (.lexeme (.word (first :: rest.takeWhile isWordChar)), rest.dropWhile isWordChar)
  else
    match Symbol.ofChar? first with
    | some mark => cutSymbol mark rest
    | none => (.stray first, rest)

/-! ## What a cut keeps -/

private theorem text_cutString_append (text : List Char) :
    (cutString text).1.text ++ (cutString text).2 = quote :: text := by
  have whole : text.takeWhile (· ≠ quote) ++ text.dropWhile (· ≠ quote) = text :=
    List.takeWhile_append_dropWhile
  unfold cutString
  dsimp only
  split
  next restEq =>
    rw [restEq] at whole
    simpa [Segment.text] using whole
  next closing rest restEq =>
    have isQuote : closing = quote := by
      have failing := List.head?_dropWhile_not (p := (· ≠ quote)) text
      rw [restEq] at failing
      simpa using failing
    subst isQuote
    rw [restEq] at whole
    simpa [Segment.text, Lexeme.text] using whole

private theorem text_cutSymbol_append {mark : Symbol} {first : Char}
    (single : mark.spelling = [first]) (rest : List Char) :
    (cutSymbol mark rest).1.text ++ (cutSymbol mark rest).2 = first :: rest := by
  unfold cutSymbol
  split
  next others =>
    cases single
    simp [Segment.text]
  next =>
    have kept := Lexeme.spelling_splitSymbol_append mark rest
    simpa [Segment.text, Lexeme.text, single] using kept

/-- A cut loses nothing. -/
theorem text_cut_append (first : Char) (rest : List Char) :
    (cut first rest).1.text ++ (cut first rest).2 = first :: rest := by
  unfold cut
  split
  · rfl
  split
  next isQuote => rw [text_cutString_append, isQuote]
  split
  · exact Numeral.text_split_append (first :: rest)
  split
  · simp [Segment.text, Lexeme.text]
  split
  next mark found =>
    exact text_cutSymbol_append (Symbol.spelling_of_ofChar? found) rest
  next => rfl

/-- A cut takes at least one character. -/
theorem text_cut_ne_nil (first : Char) (rest : List Char) :
    (cut first rest).1.text ≠ [] := by
  unfold cut
  split
  · simp [Segment.text]
  split
  · unfold cutString
    dsimp only
    split <;> simp [Segment.text, Lexeme.text]
  split
  next isDigit => exact Numeral.text_split_ne_nil isDigit rest
  split
  · simp [Segment.text, Lexeme.text]
  split
  · unfold cutSymbol
    split
    · simp [Segment.text]
    · exact Symbol.spelling_ne_nil _
  · simp [Segment.text]

theorem exists_text_cut (first : Char) (rest : List Char) :
    ∃ more, (cut first rest).1.text = first :: more := by
  have whole := text_cut_append first rest
  cases textEq : (cut first rest).1.text with
  | nil => exact absurd textEq (text_cut_ne_nil first rest)
  | cons c more =>
      rw [textEq] at whole
      have isFirst : c = first := (List.cons.inj whole).1
      exact ⟨more, by rw [isFirst]⟩

theorem length_cut_rest_le (first : Char) (rest : List Char) :
    (cut first rest).2.length ≤ rest.length := by
  have kept := congrArg List.length (text_cut_append first rest)
  have taken := List.length_pos_iff.2 (text_cut_ne_nil first rest)
  simp only [List.length_append, List.length_cons] at kept
  omega

end Segment

/-! ## The whole text -/

/-- The segments of a text, put before those of `taken` in reverse. -/
private def cutAll (taken : List Segment) : List Char → List Segment
  | [] => taken.reverse
  | first :: rest =>
      let found := Segment.cut first rest
      cutAll (found.1 :: taken) found.2
termination_by text => text.length
decreasing_by
  have shorter := Segment.length_cut_rest_le first rest
  simp only [List.length_cons]
  omega

private theorem cutAll_eq_append (taken : List Segment) (text : List Char) :
    cutAll taken text = taken.reverse ++ cutAll [] text := by
  induction lengthEq : text.length using Nat.strongRecOn generalizing taken text with
  | ind length ih =>
    cases text with
    | nil => simp [cutAll]
    | cons first rest =>
      have shorter := Segment.length_cut_rest_le first rest
      simp only [List.length_cons] at lengthEq
      have below : (Segment.cut first rest).2.length < length := by omega
      rw [cutAll, cutAll, ih _ below _ _ rfl, ih _ below [_] _ rfl]
      simp

/-- The segments of a text in order, each the longest that the text before it
leaves. -/
def segments (text : List Char) : List Segment :=
  cutAll [] text

@[simp]
theorem segments_nil : segments [] = [] := by
  simp [segments, cutAll]

theorem segments_cons (first : Char) (rest : List Char) :
    segments (first :: rest) =
      (Segment.cut first rest).1 :: segments (Segment.cut first rest).2 := by
  rw [segments, cutAll, cutAll_eq_append]
  rfl

/-- Follows the cuts of a text: what holds of the empty text, and of a text
whenever it holds of what its first cut leaves, holds of every text. -/
theorem segments_induction {motive : List Char → Prop} (empty : motive [])
    (step : ∀ first rest, motive (Segment.cut first rest).2 →
      motive (first :: rest))
    (text : List Char) : motive text := by
  induction lengthEq : text.length using Nat.strongRecOn generalizing text with
  | ind length ih =>
    cases text with
    | nil => exact empty
    | cons first rest =>
      have shorter := Segment.length_cut_rest_le first rest
      simp only [List.length_cons] at lengthEq
      exact step first rest (ih _ (by omega) _ rfl)

/-- The segments of a text make up the text. -/
theorem flatMap_text_segments (text : List Char) :
    (segments text).flatMap Segment.text = text := by
  induction text using segments_induction with
  | empty => simp
  | step first rest ih =>
      rw [segments_cons, List.flatMap_cons, ih, Segment.text_cut_append]

end LoxScanner
