import LoxScanner.Console.Outcome
import LoxScanner.Proofs.Lossless
import LoxScanner.Proofs.Composition
import Mathlib.Data.List.Nodup

/-!
# What a listing tells

A listing shows strings as they are, and a string may hold text that looks like rows.
The rows can be told apart all the same: no kind has a space in its name, and a scan of
what comes after the name takes the row's lexeme from it, which fixes the rest of the
row.
-/

namespace LoxScanner

/-! ## Names of kinds -/

namespace Token.Kind

theorem name_injective {kind other : Kind} (same : kind.name = other.name) : kind = other := by
  have distinct : (all.map name).Nodup := by decide +kernel
  exact List.inj_on_of_nodup_map distinct (mem_all kind) (mem_all other) same

theorem space_not_mem_name (kind : Kind) : ' ' ∉ kind.name.toList := by
  have absent : ∀ listed ∈ all, ' ' ∉ listed.name.toList := by decide +kernel
  exact absent kind (mem_all kind)

end Token.Kind

/-! ## Rows -/

/-- The row that a listing has for what a token says. -/
def contentRow (content : Token.Kind × String × Option Literal) : List Char :=
  (Token.mk content.1 content.2.1 content.2.2 0).display.toList ++ [lineFeed]

def endRow : List Char :=
  contentRow (.endOfText, "", none)

theorem Scan.toList_listing (scan : Scan) :
    scan.listing.toList = (scan.tokens.map Token.content).flatMap contentRow := by
  unfold listing unlines
  rw [String.toList_join, List.map_map, List.flatMap_map, List.flatMap_map]
  simp only [Function.comp_apply, String.toList_append]
  rfl

section Rows

variable {rest tail : List Char}

/-- A run without a space and the text after the space that ends the run. -/
theorem eq_of_append_space_eq {run other : List Char} (absent : ' ' ∉ run)
    (absentOther : ' ' ∉ other) (same : run ++ ' ' :: rest = other ++ ' ' :: tail) :
    run = other ∧ rest = tail := by
  have isSpace : ∀ (others : List Char) (c : Char), (' ' :: others).head? = some c → c = ' ' := by
    intro others c isHead
    exact (Option.some.inj isHead).symm
  obtain ⟨taken, left⟩ := takeWhile_dropWhile_ne absent (isSpace rest)
  obtain ⟨takenOther, leftOther⟩ := takeWhile_dropWhile_ne absentOther (isSpace tail)
  rw [same] at taken left
  rw [takenOther] at taken
  rw [leftOther] at left
  exact ⟨taken.symm, (List.cons.inj left).2.symm⟩

namespace Lexeme

def row (found : Lexeme) : List Char :=
  contentRow found.content

variable {found other : Lexeme}

theorem longest_before_space (wellFormed : found.WellFormed) (rest : List Char) :
    (Segment.lexeme found).Longest (' ' :: rest) := by
  have blank : ∀ c, (' ' :: rest).head? = some c → c.isWhitespace = true := by
    intro c isHead
    cases isHead
    rfl
  exact ⟨wellFormed, endsBefore_of_blank blank⟩

/-- A scan takes a lexeme back from a text in which a space stands after it. -/
theorem eq_of_text_append_space_eq (wellFormed : found.WellFormed)
    (otherWellFormed : other.WellFormed)
    (same : found.text ++ ' ' :: rest = other.text ++ ' ' :: tail) :
    found = other ∧ rest = tail := by
  have first := (longest_before_space wellFormed rest).segments_append
  have second := (longest_before_space otherWellFormed tail).segments_append
  have sameSegments : segments ((Segment.lexeme found).text ++ ' ' :: rest) =
      segments ((Segment.lexeme other).text ++ ' ' :: tail) := congrArg segments same
  rw [first, second] at sameSegments
  have sameLexeme : found = other := Segment.lexeme.inj (List.cons.inj sameSegments).1
  subst sameLexeme
  exact ⟨rfl, (List.cons.inj (List.append_cancel_left same)).2⟩

theorem exists_row_append (found : Lexeme) :
    ∃ literal : List Char, ∀ rest, found.row ++ rest =
      found.kind.name.toList ++ ' ' :: (found.text ++ ' ' :: (literal ++ lineFeed :: rest)) := by
  refine ⟨(found.token 0).literalText.toList, ?_⟩
  intro rest
  simp [row, contentRow, content, Token.display, Token.literalText, token]

/-- No row starts another, so what stands after a row is told apart from it. -/
theorem eq_of_row_append_eq (wellFormed : found.WellFormed)
    (otherWellFormed : other.WellFormed) (same : found.row ++ rest = other.row ++ tail) :
    found = other ∧ rest = tail := by
  obtain ⟨literal, rowEq⟩ := found.exists_row_append
  obtain ⟨otherLiteral, otherRowEq⟩ := other.exists_row_append
  have sameRows := same
  rw [rowEq, otherRowEq] at sameRows
  have sameLexeme : found = other := by
    have afterName := (eq_of_append_space_eq (Token.Kind.space_not_mem_name _)
      (Token.Kind.space_not_mem_name _) sameRows).2
    exact (eq_of_text_append_space_eq wellFormed otherWellFormed afterName).1
  subst sameLexeme
  exact ⟨rfl, List.append_cancel_left same⟩

theorem row_append_ne_endRow (found : Lexeme) (rest : List Char) :
    found.row ++ rest ≠ endRow := by
  intro same
  obtain ⟨literal, rowEq⟩ := found.exists_row_append
  have endRowEq : endRow = "EOF".toList ++ ' ' :: " null\n".toList := by decide
  rw [rowEq, endRowEq] at same
  have noSpace : ' ' ∉ "EOF".toList := Token.Kind.space_not_mem_name .endOfText
  have sameName := (eq_of_append_space_eq (Token.Kind.space_not_mem_name _) noSpace same).1
  have isEnd : found.kind = .endOfText := Token.Kind.name_injective (String.toList_inj.1 sameName)
  exact found.token_kind_ne_endOfText 0 isEnd

end Lexeme

end Rows

/-! ## Listings -/

/-- The lexemes of a text in order. -/
def lexemes (text : List Char) : List Lexeme :=
  (segments text).filterMap Segment.lexeme?

theorem toList_listing_tokenize (source : String) (file : Option String) :
    (tokenize source file).listing.toList =
      (lexemes source.toList).flatMap Lexeme.row ++ endRow := by
  rw [Scan.toList_listing, map_content_tokens_tokenize, List.flatMap_append,
    List.flatMap_map, List.flatMap_singleton]
  rfl

/-- Rows of lexemes, closed by the row of the end, are the rows of no other lexemes. -/
theorem eq_of_flatMap_row_append_eq {founds others : List Lexeme}
    (wellFormed : ∀ found ∈ founds, found.WellFormed)
    (othersWellFormed : ∀ found ∈ others, found.WellFormed)
    (same : founds.flatMap Lexeme.row ++ endRow = others.flatMap Lexeme.row ++ endRow) :
    founds = others := by
  induction founds generalizing others with
  | nil =>
      cases others with
      | nil => rfl
      | cons other others =>
          rw [List.flatMap_cons, List.append_assoc] at same
          exact absurd same.symm (other.row_append_ne_endRow _)
  | cons found founds ih =>
      rw [List.flatMap_cons, List.append_assoc] at same
      cases others with
      | nil => exact absurd same (found.row_append_ne_endRow _)
      | cons other others =>
          rw [List.flatMap_cons, List.append_assoc] at same
          obtain ⟨foundWellFormed, laterWellFormed⟩ := List.forall_mem_cons.1 wellFormed
          obtain ⟨otherWellFormed, othersLater⟩ := List.forall_mem_cons.1 othersWellFormed
          obtain ⟨sameLexeme, sameRows⟩ :=
            Lexeme.eq_of_row_append_eq foundWellFormed otherWellFormed same
          rw [sameLexeme, ih laterWellFormed othersLater sameRows]

theorem lexemes_eq_of_listing_eq {source other : String} {file otherFile : Option String}
    (same : (tokenize source file).listing = (tokenize other otherFile).listing) :
    lexemes source.toList = lexemes other.toList := by
  apply eq_of_flatMap_row_append_eq
  · intro found member
    exact wellFormed_of_mem_lexemes member
  · intro found member
    exact wellFormed_of_mem_lexemes member
  · rw [← toList_listing_tokenize source file, ← toList_listing_tokenize other otherFile, same]

/-- Two texts have the same listing exactly if their tokens are as many and have the
same kinds, lexemes and literals in the same order. Only lines may differ. -/
theorem listing_eq_listing_iff (source other : String) (file otherFile : Option String) :
    (tokenize source file).listing = (tokenize other otherFile).listing ↔
      (tokenize source file).tokens.map Token.content =
        (tokenize other otherFile).tokens.map Token.content := by
  constructor
  · intro same
    have sameLexemes := lexemes_eq_of_listing_eq same
    unfold lexemes at sameLexemes
    rw [map_content_tokens_tokenize, map_content_tokens_tokenize, sameLexemes]
  · intro sameContents
    apply String.toList_inj.1
    rw [Scan.toList_listing, Scan.toList_listing, sameContents]

/-- The string holds what would be the end of its own row and the row of `b`. -/
example : (tokenize "\"a null\nIDENTIFIER b\" c" none).listing =
    "STRING \"a null\nIDENTIFIER b\" a null\nIDENTIFIER b\nIDENTIFIER c null\nEOF  null\n" := by
  decide +kernel

end LoxScanner
