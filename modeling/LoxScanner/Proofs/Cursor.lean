import LoxScanner.Cursor

/-!
# A cursor as two cuts of a text

A cursor's two byte offsets stand for two cuts of its text. In the three lists of
characters that the cuts leave, each operation of the cursor is one on the list
of the characters to come, and none of its slices faults.
-/

namespace LoxScanner

def byteCount (text : List Char) : Nat :=
  (String.ofList text).utf8ByteSize

@[simp]
theorem byteCount_nil : byteCount [] = 0 := by
  simp [byteCount]

@[simp]
theorem byteCount_append (left right : List Char) :
    byteCount (left ++ right) = byteCount left + byteCount right := by
  simp [byteCount, String.ofList_append]

@[simp]
theorem byteCount_singleton (c : Char) : byteCount [c] = c.utf8Size := by
  simp [byteCount]

theorem byteCount_cons (c : Char) (text : List Char) :
    byteCount (c :: text) = c.utf8Size + byteCount text := by
  rw [← List.singleton_append, byteCount_append, byteCount_singleton]

/-! ## Positions -/

/-- The byte offset after a first part of a text is the position that splits the
text there. -/
theorem exists_boundary_of_append {source : String} {before after : List Char}
    (whole : source.toList = before ++ after) :
    ∃ here : source.Pos, boundary source (byteCount before) = .ok here ∧
      here.Splits (String.ofList before) (String.ofList after) := by
  have sourceEq : source = String.ofList before ++ String.ofList after := by
    rw [← String.ofList_append, ← whole, String.ofList_toList]
  have valid : String.Pos.Raw.IsValid source ⟨byteCount before⟩ :=
    String.Pos.Raw.isValid_iff_exists_append.2 ⟨_, _, sourceEq, rfl⟩
  refine ⟨source.pos ⟨byteCount before⟩ valid, ?_, ⟨sourceEq, rfl⟩⟩
  rw [boundary, dif_pos valid]

/-- The slice between the offsets of two cuts is the text between the cuts. -/
theorem slice_eq_ok {source : String} {before middle after : List Char}
    (whole : source.toList = before ++ (middle ++ after)) :
    slice source (byteCount before) (byteCount (before ++ middle)) =
      .ok (String.ofList middle) := by
  obtain ⟨first, firstEq, firstSplits⟩ := exists_boundary_of_append whole
  have wholeLast : source.toList = (before ++ middle) ++ after := by
    rw [whole, List.append_assoc]
  obtain ⟨last, lastEq, lastSplits⟩ := exists_boundary_of_append wholeLast
  rw [String.ofList_append] at firstSplits lastSplits
  obtain ⟨ordered, copied⟩ :=
    String.copy_slice_eq_iff_splits.2 ⟨_, _, firstSplits, lastSplits⟩
  rw [slice, firstEq, lastEq]
  simp only [bind, Except.bind, dif_pos ordered, copied]
  rfl

section Reading

variable {source : String} {here : source.Pos} {before : String}

private theorem ne_endPos_of_splits_cons {c : Char} {others : List Char}
    (splits : here.Splits before (String.ofList (c :: others))) :
    here ≠ source.endPos := by
  rw [ne_eq, splits.eq_endPos_iff, String.ofList_eq_empty_iff]
  exact List.cons_ne_nil c others

private theorem next_splits {c : Char} {others : List Char}
    (splits : here.Splits before (String.ofList (c :: others)))
    (notEnd : here ≠ source.endPos) :
    here.get notEnd = c ∧
      (here.next notEnd).Splits (before ++ String.singleton c)
        (String.ofList others) := by
  rw [String.ofList_cons] at splits
  exact ⟨splits.next.get_eq_of_singleton, splits.next⟩

theorem get?_of_splits {after : List Char}
    (splits : here.Splits before (String.ofList after)) :
    here.get? = after.head? := by
  cases after with
  | nil =>
      have atEnd : here = source.endPos := splits.eq_endPos_iff.2 String.ofList_nil
      rw [String.Pos.get?_eq_none atEnd]
      rfl
  | cons c others =>
      have notEnd := ne_endPos_of_splits_cons splits
      rw [String.Pos.get?_eq_some_get notEnd, (next_splits splits notEnd).1]
      rfl

theorem next?_bind_get?_of_splits {after : List Char}
    (splits : here.Splits before (String.ofList after)) :
    here.next?.bind String.Pos.get? = after[1]? := by
  cases after with
  | nil =>
      have atEnd : here = source.endPos := splits.eq_endPos_iff.2 String.ofList_nil
      simp [String.Pos.next?, String.Slice.Pos.next?, atEnd]
  | cons c others =>
      have notEnd := ne_endPos_of_splits_cons splits
      have nextEq : here.next? = some (here.next notEnd) := by
        simp [String.Pos.next?, String.Slice.Pos.next?, notEnd]
      rw [nextEq, Option.bind_some, get?_of_splits (next_splits splits notEnd).2,
        List.getElem?_cons_succ, List.head?_eq_getElem?]

end Reading

/-! ## Operations of a cursor -/

namespace Cursor

/-- The text before the lexeme under way, the lexeme so far, and the text after the
cursor. -/
structure Splits (cursor : Cursor) (before taken left : List Char) : Prop where
  source_eq : cursor.source.toList = before ++ (taken ++ left)
  start_eq : cursor.start = byteCount before
  current_eq : cursor.current = byteCount (before ++ taken)

variable {cursor : Cursor} {before taken left : List Char}

theorem splits_ofSource (source : String) :
    (ofSource source).Splits [] [] source.toList :=
  ⟨rfl, byteCount_nil.symm, byteCount_nil.symm⟩

namespace Splits

theorem whole (splits : cursor.Splits before taken left) :
    cursor.source.toList = (before ++ taken) ++ left := by
  rw [splits.source_eq, List.append_assoc]

/-- The cuts of a text determine the cursor. -/
theorem eq {other : Cursor} (splits : cursor.Splits before taken left)
    (otherSplits : other.Splits before taken left) : cursor = other := by
  obtain ⟨source, start, current⟩ := cursor
  obtain ⟨otherSource, otherStart, otherCurrent⟩ := other
  have sourceEq : source = otherSource :=
    String.toList_inj.1 (splits.source_eq.trans otherSplits.source_eq.symm)
  have startEq : start = otherStart := splits.start_eq.trans otherSplits.start_eq.symm
  have currentEq : current = otherCurrent :=
    splits.current_eq.trans otherSplits.current_eq.symm
  rw [sourceEq, startEq, currentEq]

theorem utf8ByteSize_eq (splits : cursor.Splits before taken left) :
    cursor.source.utf8ByteSize = cursor.current + byteCount left := by
  have sourceEq : cursor.source = String.ofList (before ++ taken ++ left) := by
    rw [← splits.whole, String.ofList_toList]
  rw [splits.current_eq, ← byteCount_append, sourceEq]
  rfl

theorem atEnd_eq (splits : cursor.Splits before taken left) :
    cursor.atEnd = left.isEmpty := by
  rw [atEnd, splits.utf8ByteSize_eq]
  cases left with
  | nil => simp
  | cons c others =>
      have positive := c.utf8Size_pos
      simp [byteCount_cons]
      omega

theorem lexeme_eq (splits : cursor.Splits before taken left) :
    cursor.lexeme = .ok (String.ofList taken) := by
  rw [lexeme, splits.start_eq, splits.current_eq, slice_eq_ok splits.source_eq]

theorem remainder_eq (splits : cursor.Splits before taken left) :
    cursor.remainder = .ok (String.ofList left) := by
  have upper : cursor.source.utf8ByteSize = byteCount ((before ++ taken) ++ left) := by
    rw [splits.utf8ByteSize_eq, splits.current_eq, byteCount_append _ left]
  have whole : cursor.source.toList = (before ++ taken) ++ (left ++ []) := by
    rw [List.append_nil, splits.whole]
  rw [remainder, upper, splits.current_eq, slice_eq_ok whole]

theorem peek_eq (splits : cursor.Splits before taken left) :
    cursor.peek = .ok (left.head?.getD noCharacter) := by
  obtain ⟨here, hereEq, hereSplits⟩ := exists_boundary_of_append splits.whole
  rw [peek, splits.current_eq, hereEq]
  simp only [bind, Except.bind, get?_of_splits hereSplits]
  rfl

theorem peekNext_eq (splits : cursor.Splits before taken left) :
    cursor.peekNext = .ok (left[1]?.getD noCharacter) := by
  obtain ⟨here, hereEq, hereSplits⟩ := exists_boundary_of_append splits.whole
  rw [peekNext, splits.current_eq, hereEq]
  simp only [bind, Except.bind, next?_bind_get?_of_splits hereSplits]
  rfl

theorem mark (splits : cursor.Splits before taken left) :
    cursor.mark.Splits (before ++ taken) [] left :=
  ⟨splits.whole, splits.current_eq, by
    rw [List.append_nil]
    exact splits.current_eq⟩

theorem moveBy {c : Char} {others : List Char}
    (splits : cursor.Splits before taken (c :: others)) :
    (cursor.moveBy c).Splits before (taken ++ [c]) others where
  source_eq := by simpa [Cursor.moveBy] using splits.source_eq
  start_eq := splits.start_eq
  current_eq := by
    simp [Cursor.moveBy, splits.current_eq]
    omega

theorem on_advance (splits : cursor.Splits before taken left) :
    advance.on cursor =
      (.ok (left.head?.getD noCharacter), cursor.moveBy (left.head?.getD noCharacter)) := by
  rw [advance, Action.on_bind, Action.on_reading, splits.peek_eq]
  rfl

theorem next_eq {c : Char} {others : List Char}
    (splits : cursor.Splits before taken (c :: others)) :
    cursor.next = .ok (c, cursor.moveBy c) := by
  rw [next, splits.atEnd_eq, Action.outcome, splits.on_advance]
  rfl

theorem sees_eq (splits : cursor.Splits before taken left) (expected : Char) :
    cursor.sees expected = .ok (left.head? = some expected) := by
  rw [sees, splits.atEnd_eq, splits.peek_eq]
  cases left with
  | nil => rfl
  | cons c others =>
      have same : decide (c = expected) = decide ((c :: others).head? = some expected) := by
        simp
      exact congrArg Except.ok same

theorem on_matchChar (splits : cursor.Splits before taken left) (expected : Char) :
    (matchChar expected).on cursor =
      if left.head? = some expected then (.ok true, cursor.moveBy expected)
      else (.ok false, cursor) := by
  rw [matchChar, Action.on_bind, Action.on_reading, splits.sees_eq]
  by_cases found : left.head? = some expected
  · rw [decide_eq_true found, if_pos found]
    rfl
  · rw [decide_eq_false found, if_neg found]
    rfl

theorem matchChar_eq (splits : cursor.Splits before taken left) (expected : Char) :
    (matchChar expected).outcome cursor =
      .ok (if left.head? = some expected then (true, cursor.moveBy expected)
        else (false, cursor)) := by
  rw [Action.outcome, splits.on_matchChar]
  by_cases found : left.head? = some expected
  · rw [if_pos found, if_pos found]
  · rw [if_neg found, if_neg found]

/-- Skipping takes the longest run of characters that satisfy the condition. -/
theorem exists_skipWhile (condition : Char → Bool)
    (splits : cursor.Splits before taken left) :
    ∃ later, cursor.skipWhile condition = .ok later ∧
      later.Splits before (taken ++ left.takeWhile condition)
        (left.dropWhile condition) := by
  induction left generalizing cursor taken with
  | nil =>
      have ended : cursor.atEnd = true := by simp [splits.atEnd_eq]
      refine ⟨cursor, ?_, by simpa using splits⟩
      rw [skipWhile, dif_pos ended]
  | cons c others ih =>
      have going : ¬ cursor.atEnd = true := by simp [splits.atEnd_eq]
      have peeked : cursor.peek = .ok c := splits.peek_eq
      rw [skipWhile, dif_neg going, peeked]
      by_cases satisfied : condition c = true
      · obtain ⟨later, skipped, laterSplits⟩ := ih splits.moveBy
        refine ⟨later, ?_, ?_⟩
        · simpa [bind, Except.bind, satisfied] using skipped
        · simpa [satisfied] using laterSplits
      · refine ⟨cursor, ?_, ?_⟩
        · simp [bind, Except.bind, pure, Except.pure, satisfied]
        · simpa [satisfied] using splits

end Splits

end Cursor

end LoxScanner
