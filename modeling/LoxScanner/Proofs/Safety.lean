import LoxScanner.Proofs.LineNumbers
import LoxScanner.Proofs.Reader
import LoxScanner.Proofs.Steps

/-!
# A scan never faults

A lexer that is driven by hand, and takes no character where none is left, stands at a
boundary of its text. So does every stage of its scan, and no step faults. Each segment
takes a character or more, so there are at most as many as there are characters.
-/

namespace LoxScanner

/-! ## Sound cursors -/

/-- A slice that is in order lies between two boundaries of the text. -/
theorem valid_of_slice_eq_ok {source text : String} {lower upper : Nat}
    (sliced : slice source lower upper = .ok text) :
    String.Pos.Raw.IsValid source ⟨lower⟩ ∧ String.Pos.Raw.IsValid source ⟨upper⟩ ∧
      lower ≤ upper := by
  obtain ⟨first, firstEq, rest⟩ := Cursor.exists_of_bind_eq_ok sliced
  obtain ⟨last, lastEq, outcome⟩ := Cursor.exists_of_bind_eq_ok rest
  unfold boundary at firstEq lastEq
  split at firstEq
  next firstValid =>
    split at lastEq
    next lastValid =>
      cases firstEq
      cases lastEq
      split at outcome
      next ordered => exact ⟨firstValid, lastValid, ordered⟩
      next => cases outcome
    next => cases lastEq
  next => cases firstEq

namespace Cursor

/-- A cursor whose offsets are in order and at boundaries of its text, so that the
slices up to them do not fault. -/
structure Sound (cursor : Cursor) : Prop where
  start_le : cursor.start ≤ cursor.current
  current_le : cursor.current ≤ cursor.source.utf8ByteSize
  start_valid : String.Pos.Raw.IsValid cursor.source ⟨cursor.start⟩
  current_valid : String.Pos.Raw.IsValid cursor.source ⟨cursor.current⟩
  exists_lexeme : ∃ text, cursor.lexeme = .ok text
  exists_remainder : ∃ text, cursor.remainder = .ok text

namespace Splits

variable {cursor : Cursor} {before taken left : List Char}

theorem sound (splits : cursor.Splits before taken left) : cursor.Sound := by
  obtain ⟨startValid, currentValid, startLe⟩ := valid_of_slice_eq_ok splits.lexeme_eq
  obtain ⟨-, -, currentLe⟩ := valid_of_slice_eq_ok splits.remainder_eq
  exact ⟨startLe, currentLe, startValid, currentValid, ⟨_, splits.lexeme_eq⟩,
    ⟨_, splits.remainder_eq⟩⟩

end Splits

end Cursor

namespace Lexer

/-! ## Driving a lexer by hand -/

/-- The lexers that careful calls make of the lexer at the start of a text. -/
inductive Driven (source : String) (file : Option String) : Lexer → Prop
  | initial : Driven source file (ofSource source file)
  | call {lexer : Lexer} (call : Call) :
      Driven source file lexer → call.Careful lexer →
      Driven source file (lexer.perform call).2

/-- Whether a lexer stands in a text with the lexeme starting where the text does, on
its first line. -/
def AtFirstLexeme (lexer : Lexer) (source : String) : Prop :=
  ∃ taken left, lexer.cursor.source = source ∧ lexer.cursor.Splits [] taken left ∧
    lexer.line = 1

theorem atFirstLexeme_iff {lexer : Lexer} {source : String} :
    lexer.AtFirstLexeme source ↔ ∃ reader, lexer.Follows source reader := by
  constructor
  · rintro ⟨taken, left, sourceEq, splits, lineEq⟩
    exact ⟨⟨taken, left⟩, sourceEq, splits, lineEq⟩
  · rintro ⟨reader, follows⟩
    exact ⟨reader.taken, reader.left, follows.source_eq, follows.splits, follows.line_eq⟩

theorem atFirstLexeme_ofSource (source : String) (file : Option String) :
    (ofSource source file).AtFirstLexeme source :=
  atFirstLexeme_iff.2 ⟨_, follows_ofSource source file⟩

/-- A careful call is answered, and leaves a lexer that stands in its text. -/
theorem exists_perform {lexer : Lexer} {source : String} {call : Call}
    (stands : lexer.AtFirstLexeme source) (careful : call.Careful lexer) :
    ∃ answer after, lexer.perform call = (.ok answer, after) ∧
      after.AtFirstLexeme source := by
  obtain ⟨reader, follows⟩ := atFirstLexeme_iff.1 stands
  obtain ⟨after, performed, afterFollows⟩ := follows.exists_perform careful
  exact ⟨reader.answer call, after, performed, atFirstLexeme_iff.2 ⟨_, afterFollows⟩⟩

theorem Driven.atFirstLexeme {source : String} {file : Option String} {lexer : Lexer}
    (driven : Driven source file lexer) : lexer.AtFirstLexeme source := by
  induction driven with
  | initial => exact atFirstLexeme_ofSource source file
  | call call _ careful ih =>
      obtain ⟨answer, after, performed, afterStands⟩ := exists_perform ih careful
      rw [performed]
      exact afterStands

/-! ## The driving loop -/

/-- The loop of a scan: `count` segments are scanned, none of them at the end. -/
inductive Iterates : Nat → Lexer → Lexer → Prop
  | refl (lexer : Lexer) : Iterates 0 lexer lexer
  | step {count : Nat} {lexer next last : Lexer} :
      lexer.cursor.atEnd = false → lexer.scanSegment = .ok next →
      Iterates count next last → Iterates (count + 1) lexer last

theorem exists_iterates {lexer : Lexer} {before taken left : List Char}
    (splits : lexer.cursor.Splits before taken left) :
    ∃ count last, count ≤ left.length ∧ Iterates count lexer last ∧
      lexer.scanAll = .ok last := by
  induction left using segments_induction generalizing lexer before taken with
  | empty =>
      have ended : lexer.cursor.atEnd = true := splits.atEnd_eq
      refine ⟨0, lexer, Nat.le_refl 0, .refl lexer, ?_⟩
      rw [scanAll, if_pos ended]
  | step first rest ih =>
      have going : lexer.cursor.atEnd = false := splits.atEnd_eq
      obtain ⟨after, scanned, reads⟩ := exists_scanSegment splits
      obtain ⟨count, last, countLe, iterates, scannedAll⟩ := ih reads.splits
      refine ⟨count + 1, last, ?_, .step going scanned iterates, ?_⟩
      · have shorter := Segment.length_cut_rest_le first rest
        rw [List.length_cons]
        omega
      · rw [scanAll_of_scanSegment splits scanned, scannedAll]

/-! ## The stages of a scan -/

section Stages

variable {lexer : Lexer} {source : String} {read before taken left : List Char}
  {line : UInt32}

/-- A lexer stands after all that it has read so far. -/
theorem stands_self (sourceEq : lexer.cursor.source = source)
    (splits : lexer.cursor.Splits before taken left) :
    lexer.Stands source (before ++ taken) lexer.line before taken left :=
  ⟨sourceEq, splits, [], by rw [List.append_nil], (lineAfter_nil lexer.line).symm⟩

theorem Stands.of_reaches (stands : lexer.Stands source read line before taken left)
    {stage : Stage} (reaches : Stage.Reaches ⟨lexer, .between⟩ stage) :
    stage.StandsAfter source read line ∧
      (stage.finished = false → ∃ next, stage.step = .ok next) := by
  obtain ⟨last, _, ended, walk⟩ := exists_walk_all stands
  exact walk.holds_of_reaches ended reaches

/-- A segment takes its first character at least. -/
theorem Stands.exists_scanSegment
    (stands : lexer.Stands source read line before taken left)
    (going : lexer.cursor.atEnd = false) :
    ∃ first after, lexer.cursor.peek = .ok first ∧ lexer.scanSegment = .ok after ∧
      lexer.cursor.current + first.utf8Size ≤ after.cursor.current ∧
      Stage.Reaches ⟨lexer, .between⟩ ⟨after, .between⟩ := by
  cases left with
  | nil =>
      rw [stands.splits.atEnd_eq] at going
      cases going
  | cons first rest =>
      obtain ⟨after, scanned, afterStands, walk⟩ := exists_walk_segment stands
      obtain ⟨more, textEq⟩ := Segment.exists_text_cut first rest
      refine ⟨first, after, stands.splits.peek_eq, scanned, ?_, walk.reaches⟩
      rw [afterStands.splits.current_eq, textEq, byteCount_append, byteCount_cons,
        ← stands.splits.current_eq]
      omega

theorem closeString_of_step {opening : UInt32} {next : Stage}
    (stepEq : Stage.step ⟨lexer, .string opening⟩ = .ok next)
    (closes : ∀ c, lexer.cursor.peek = .ok c →
      Phase.goesOn (.string opening) lexer.cursor c = false) :
    lexer.closeString opening = .ok next := by
  rw [Stage.step, if_neg (by simp)] at stepEq
  obtain ⟨c, peeked, outcome⟩ := Cursor.exists_of_bind_eq_ok stepEq
  have stays : ¬ Phase.goesOn (.string opening) lexer.cursor c = true := by
    rw [closes c peeked]
    exact Bool.false_ne_true
  dsimp only at outcome
  rw [if_neg stays] at outcome
  exact outcome

/-- The contents of a string are sliced without a fault, where the text ends and
where the closing quote has been taken. -/
theorem Stands.exists_contents (stands : lexer.Stands source read line before taken left)
    {opening : UInt32} {next : Stage}
    (stepEq : Stage.step ⟨lexer, .string opening⟩ = .ok next) :
    (lexer.cursor.atEnd = true → ∃ contents,
      slice source (lexer.cursor.start + 1) lexer.cursor.current = .ok contents) ∧
    (∀ closed, lexer.cursor.next = .ok (quote, closed) → ∃ contents,
      slice source (closed.start + 1) (closed.current - 1) = .ok contents) := by
  refine ⟨?_, ?_⟩
  · intro ended
    have closed := closeString_of_step stepEq fun c _ => by simp [Phase.goesOn, ended]
    rw [closeString, if_pos ended, stands.source_eq] at closed
    obtain ⟨contents, sliced, -⟩ := Cursor.exists_of_bind_eq_ok closed
    exact ⟨contents, sliced⟩
  · intro closed taken
    have leads := (Cursor.leads_of_next taken).1
    have going : ¬ lexer.cursor.atEnd = true := by
      intro ended
      rw [Cursor.next, if_pos ended] at taken
      cases taken
    have peeked : ∀ c, lexer.cursor.peek = .ok c → c = quote := by
      intro c peekEq
      rw [Cursor.next, if_neg going, Cursor.outcome_advance, peekEq] at taken
      cases taken
      rfl
    have closedEq := closeString_of_step stepEq fun c peekEq => by
      simp [Phase.goesOn, peeked c peekEq]
    rw [closeString, if_neg going, taken, bind_ok] at closedEq
    obtain ⟨contents, sliced, -⟩ := Cursor.exists_of_bind_eq_ok closedEq
    rw [leads.source_eq, stands.source_eq] at sliced
    exact ⟨contents, sliced⟩

/-- The line at a stage is one more than the number of line feeds that the scan has
passed, if that fits the count. -/
theorem Stage.StandsAfter.toNat_line {stage : Stage} {text : List Char}
    (stands : stage.StandsAfter source read 1) (whole : source.toList = read ++ text)
    (bounded : text.count lineFeed ≤ UInt32.size - 2) :
    ∃ passed, slice source (byteCount read) stage.lexer.cursor.current = .ok passed ∧
      stage.lexer.line.toNat = 1 + passed.toList.count lineFeed := by
  obtain ⟨before, taken, left, sourceEq, splits, passed, passedEq, lineEq⟩ := stands
  have stageWhole : source.toList = read ++ (passed ++ left) := by
    rw [← sourceEq, splits.whole, passedEq, List.append_assoc]
  have textEq : text = passed ++ left :=
    List.append_cancel_left (whole.symm.trans stageWhole)
  refine ⟨String.ofList passed, ?_, ?_⟩
  · rw [splits.current_eq, passedEq, slice_eq_ok stageWhole]
  · rw [lineEq, String.toList_ofList, toNat_lineAfter_of_append bounded textEq]

theorem AtFirstLexeme.stands (atFirst : lexer.AtFirstLexeme source) :
    ∃ taken left, source.toList = taken ++ left ∧
      lexer.cursor.current = byteCount taken ∧
      lexer.Stands source taken 1 [] taken left := by
  obtain ⟨taken, left, sourceEq, splits, lineEq⟩ := atFirst
  have stands := stands_self sourceEq splits
  rw [List.nil_append, lineEq] at stands
  exact ⟨taken, left, by rw [← sourceEq, splits.whole, List.nil_append], splits.current_eq,
    stands⟩

/-- From a lexer on its first line, every stage of a scan but the last goes on. -/
theorem AtFirstLexeme.goes_of_reaches {stage : Stage} (atFirst : lexer.AtFirstLexeme source)
    (reaches : Stage.Reaches ⟨lexer, .between⟩ stage) :
    stage.finished = false → ∃ next, stage.step = .ok next := by
  obtain ⟨taken, left, -, -, stands⟩ := atFirst.stands
  exact (stands.of_reaches reaches).2

/-- From a lexer on its first line, the line at every stage of a scan is counted without a
wrap. -/
theorem AtFirstLexeme.toNat_line_of_reaches {stage : Stage}
    (atFirst : lexer.AtFirstLexeme source)
    (bounded : source.toList.count lineFeed ≤ UInt32.size - 2)
    (reaches : Stage.Reaches ⟨lexer, .between⟩ stage) :
    ∃ passed, slice source lexer.cursor.current stage.lexer.cursor.current = .ok passed ∧
      stage.lexer.line.toNat = 1 + passed.toList.count lineFeed := by
  obtain ⟨taken, left, whole, currentEq, stands⟩ := atFirst.stands
  rw [whole, List.count_append] at bounded
  rw [currentEq]
  exact (stands.of_reaches reaches).1.toNat_line whole (by omega)

end Stages

end Lexer

/-! ## The safety of a scan -/

section Safety

open Lexer

/-- From every lexer that careful calls lead to, a scan ends, and none of its stages
faults. -/
theorem scan_never_faults (source : String) (file : Option String) (lexer : Lexer)
    (driven : Driven source file lexer) :
    (∀ call : Call, call.Careful lexer →
      ∃ answer, (lexer.perform call).1 = .ok answer) ∧
    (∀ stage : Stage, Stage.Reaches ⟨lexer, .between⟩ stage →
      stage.lexer.cursor.source = source ∧ stage.lexer.cursor.Sound ∧
        (stage.finished = false → ∃ next, stage.step = .ok next)) ∧
    (∀ (current : Lexer) (opening : UInt32),
      Stage.Reaches ⟨lexer, .between⟩ ⟨current, .string opening⟩ →
        (current.cursor.atEnd = true → ∃ contents,
          slice source (current.cursor.start + 1) current.cursor.current =
            .ok contents) ∧
        (∀ closed, current.cursor.next = .ok (quote, closed) → ∃ contents,
          slice source (closed.start + 1) (closed.current - 1) = .ok contents)) ∧
    (∀ current : Lexer, Stage.Reaches ⟨lexer, .between⟩ ⟨current, .between⟩ →
      current.cursor.atEnd = false →
        ∃ first after, current.cursor.peek = .ok first ∧
          current.scanSegment = .ok after ∧
          current.cursor.current + first.utf8Size ≤ after.cursor.current ∧
          Stage.Reaches ⟨current, .between⟩ ⟨after, .between⟩) ∧
    (∃ rest count last, lexer.cursor.remainder = .ok rest ∧
      count ≤ rest.length ∧ Iterates count lexer last ∧
      last.cursor.atEnd = true ∧ Stage.Reaches ⟨lexer, .between⟩ ⟨last, .between⟩ ∧
      lexer.scanTokens = .ok last.found) ∧
    (source.toList.count lineFeed ≤ UInt32.size - 2 →
      ∀ stage : Stage, Stage.Reaches ⟨lexer, .between⟩ stage →
        ∃ passed, slice source lexer.cursor.current stage.lexer.cursor.current =
            .ok passed ∧
          stage.lexer.line.toNat = 1 + passed.toList.count lineFeed) := by
  obtain ⟨taken, left, -, -, stands⟩ := driven.atFirstLexeme.stands
  refine ⟨?_, ?_, ?_, ?_, ?_, ?_⟩
  · intro call careful
    obtain ⟨answer, after, performed, -⟩ := exists_perform driven.atFirstLexeme careful
    exact ⟨answer, by rw [performed]⟩
  · intro stage reaches
    obtain ⟨⟨before, taken, left, stageStands⟩, goes⟩ := stands.of_reaches reaches
    exact ⟨stageStands.source_eq, stageStands.splits.sound, goes⟩
  · intro current opening reaches
    obtain ⟨⟨before, taken, left, currentStands⟩, goes⟩ := stands.of_reaches reaches
    obtain ⟨next, stepEq⟩ := goes rfl
    exact currentStands.exists_contents stepEq
  · intro current reaches going
    obtain ⟨⟨before, taken, left, currentStands⟩, -⟩ := stands.of_reaches reaches
    exact currentStands.exists_scanSegment going
  · obtain ⟨count, last, countLe, iterates, scannedAll⟩ := exists_iterates stands.splits
    obtain ⟨other, otherEq, ended, walk⟩ := exists_walk_all stands
    have same : other = last := Except.ok.inj (otherEq.symm.trans scannedAll)
    rw [same] at ended walk
    refine ⟨String.ofList left, count, last, stands.splits.remainder_eq, ?_, iterates, ended,
      walk.reaches, ?_⟩
    · rw [String.length_ofList]
      exact countLe
    · rw [scanTokens, scannedAll]
      rfl
  · intro bounded stage reaches
    exact driven.atFirstLexeme.toNat_line_of_reaches bounded reaches

theorem scan_never_faults_behind_wide_character :
    let source := "é \"a\n😀\" 1.\x00\n\"b"
    let lexer := ((ofSource source none).perform .advance).2
    Driven source none lexer ∧ lexer.cursor.current = 2 ∧
    (∃ rest count last, lexer.cursor.remainder = .ok rest ∧
      count ≤ rest.length ∧ Iterates count lexer last ∧
      last.cursor.atEnd = true ∧ Stage.Reaches ⟨lexer, .between⟩ ⟨last, .between⟩ ∧
      lexer.scanTokens = .ok last.found) ∧
    ∀ stage : Stage, Stage.Reaches ⟨lexer, .between⟩ stage →
      stage.lexer.cursor.Sound ∧
        ∃ passed, slice source lexer.cursor.current stage.lexer.cursor.current =
            .ok passed ∧
          stage.lexer.line.toNat = 1 + passed.toList.count lineFeed := by
  intro source lexer
  have driven : Driven source none lexer := .call .advance .initial fun _ => rfl
  have bounded : source.toList.count lineFeed ≤ UInt32.size - 2 := by decide
  obtain ⟨-, stages, -, -, loop, lines⟩ := scan_never_faults source none lexer driven
  refine ⟨driven, by decide, loop, ?_⟩
  intro stage reaches
  exact ⟨(stages stage reaches).2.1, lines bounded stage reaches⟩

end Safety

end LoxScanner
