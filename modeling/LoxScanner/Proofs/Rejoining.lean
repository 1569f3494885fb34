import LoxScanner.Proofs.ReportLayout

/-!
# Putting a text together from its lines

A text is cut into pieces at its line feeds, and each piece is shown as a line without the
carriage return at its end, if there is one. Nothing else is lost: a line and the return taken
from it are the piece, and the pieces with line feeds between them are the text. Numbers of
lines are not bounded here, so those that fit a position are among them.
-/

namespace LoxScanner

/-! ## What a line leaves out of its piece -/

section Pieces

variable {piece : List Char}

/-- What `dropReturn` takes from the end of a piece. -/
def droppedReturn (piece : List Char) : List Char :=
  if piece.getLast? = some carriageReturn then [carriageReturn] else []

theorem droppedReturn_eq_nil_or (piece : List Char) :
    droppedReturn piece = [] ∨ droppedReturn piece = [carriageReturn] := by
  unfold droppedReturn
  split
  · exact Or.inr rfl
  · exact Or.inl rfl

theorem droppedReturn_eq_return_iff :
    droppedReturn piece = [carriageReturn] ↔ piece.getLast? = some carriageReturn := by
  unfold droppedReturn
  split
  next ends => exact iff_of_true rfl ends
  next other => exact iff_of_false (List.cons_ne_nil _ _).symm other

theorem dropReturn_append_droppedReturn (piece : List Char) :
    dropReturn piece ++ droppedReturn piece = piece := by
  by_cases ends : piece.getLast? = some carriageReturn
  · obtain ⟨line, rfl⟩ := List.getLast?_eq_some_iff.1 ends
    rw [dropReturn_append_return, droppedReturn_eq_return_iff.2 ends]
  · rw [droppedReturn, if_neg ends, List.append_nil, dropReturn_of_getLast? ends]

theorem zipWith_append_droppedReturn (pieces : List (List Char)) :
    List.zipWith (· ++ ·) (pieces.map dropReturn) (pieces.map droppedReturn) = pieces := by
  induction pieces with
  | nil => rfl
  | cons piece pieces ih =>
      rw [List.map_cons, List.map_cons, List.zipWith_cons_cons, ih,
        dropReturn_append_droppedReturn]

end Pieces

/-! ## All lines of a text -/

section Lines

variable {text : List Char} {number : Nat}

theorem isSome_line?_iff :
    (line? text number).isSome ↔ 1 ≤ number ∧ number ≤ text.count lineFeed + 1 := by
  cases number with
  | zero => simp [line?]
  | succ index =>
      rw [line?, Option.isSome_map, isSome_getElem?, length_splitOn]
      omega

theorem map_line?_range' (text : List Char) :
    (List.range' 1 (text.count lineFeed + 1)).map (line? text) =
      ((text.splitOn lineFeed).map dropReturn).map some := by
  rw [← length_splitOn]
  apply List.ext_getElem
  · simp
  · intro index inRange inPieces
    have inText : index < (text.splitOn lineFeed).length := by simpa using inPieces
    rw [List.getElem_map, List.getElem_map, List.getElem_map, List.getElem_range', Nat.one_mul,
      Nat.add_comm, line?, List.getElem?_eq_getElem inText, Option.map_some]

end Lines

/-- A text of `k` line feeds has the lines from one to `k + 1` and no other, and none of them
has a line feed in it. With a carriage return after the lines whose piece ends in one, and
nothing after the others, they make up the text. -/
theorem lines_rejoin_to_text (text : List Char) :
    (∀ number, (line? text number).isSome ↔
      1 ≤ number ∧ number ≤ text.count lineFeed + 1) ∧
    (∀ number line, line? text number = some line → lineFeed ∉ line) ∧
    ∃ lines endings : List (List Char),
      (List.range' 1 (text.count lineFeed + 1)).map (line? text) = lines.map some ∧
      (∀ ending ∈ endings, ending = [] ∨ ending = [carriageReturn]) ∧
      [lineFeed].intercalate (List.zipWith (· ++ ·) lines endings) = text ∧
      List.Forall₂
        (fun piece ending =>
          ending = [carriageReturn] ↔ piece.getLast? = some carriageReturn)
        (text.splitOn lineFeed) endings := by
  refine ⟨fun number => isSome_line?_iff, fun number line => lineFeed_not_mem_line?, _,
    (text.splitOn lineFeed).map droppedReturn, map_line?_range' text, ?_, ?_, ?_⟩
  · intro ending member
    obtain ⟨piece, -, rfl⟩ := List.mem_map.1 member
    exact droppedReturn_eq_nil_or piece
  · rw [zipWith_append_droppedReturn, List.intercalate_splitOn]
  · rw [List.forall₂_map_right_iff, List.forall₂_same]
    intro piece _
    exact droppedReturn_eq_return_iff

/-- Of two carriage returns before a line feed one stays, one that stands before no line feed
stays as well, and the line feed at the end is followed by an empty line. -/
theorem lines_with_repeated_returns :
    let text := "a\r\r\nb\rc\n".toList
    let lines := ["a\r".toList, "b\rc".toList, []]
    (List.range' 1 3).map (line? text) = lines.map some ∧
    ¬ (line? text 4).isSome ∧
    lineFeed ∉ "b\rc".toList ∧
    ∃ others, (∀ ending ∈ others, ending = [] ∨ ending = [carriageReturn]) ∧
      [lineFeed].intercalate
        (List.zipWith (· ++ ·) lines ([carriageReturn] :: others)) = text := by
  intro text lines
  have counted : text.count lineFeed + 1 = 3 := by decide
  have linesEq : (List.range' 1 3).map (line? text) = lines.map some := by decide
  have pieces : text.splitOn lineFeed = ["a\r\r".toList, "b\rc".toList, []] := by decide
  obtain ⟨present, lineFeedFree, others, endings, othersEq, isReturn, joined, ends⟩ :=
    lines_rejoin_to_text text
  have sameLines : lines = others := by
    rw [counted, linesEq] at othersEq
    exact (List.map_inj_right fun _ _ => Option.some.inj).1 othersEq
  rw [pieces] at ends
  cases ends with
  | @cons piece ending pieces endings first later =>
      rw [first.2 (by decide), ← sameLines] at joined
      refine ⟨linesEq, ?_, lineFeedFree 2 _ (by decide), endings, ?_, joined⟩
      · rw [present 4, counted]
        decide
      · intro ending member
        exact isReturn ending (List.mem_cons_of_mem _ member)

end LoxScanner
