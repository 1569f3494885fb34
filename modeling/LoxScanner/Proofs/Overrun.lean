import LoxScanner.Proofs.Resume

/-!
# Cursors past the end of their text

Taking a character where none is left moves a cursor one byte past its text. From there
every call that reads the text faults, no call leads back, and a scan finds nothing. A
lexer driven by hand gets there in no other way, and before that none of its calls faults.

A call that faults leaves the lexer as it was, because all that can fault in it is its
first part, which just reads.
-/

namespace LoxScanner

/-! ## Reading past a text -/

section Past

variable {source : String} {lower upper : Nat}

theorem boundary_eq_error (past : source.utf8ByteSize < upper) :
    boundary source upper = .error .notAtBoundary := by
  rw [boundary, dif_neg]
  intro valid
  have inside : upper ≤ source.utf8ByteSize := valid.le_rawEndPos
  omega

theorem slice_eq_error (past : source.utf8ByteSize < upper) :
    slice source lower upper = .error .notAtBoundary := by
  have upperFaults := boundary_eq_error past
  by_cases valid : String.Pos.Raw.IsValid source ⟨lower⟩
  · rw [slice, boundary, dif_pos valid, upperFaults]
    rfl
  · rw [slice, boundary, dif_neg valid]
    rfl

end Past

namespace Cursor

/-- Whether a cursor stands past its text. -/
def Past (cursor : Cursor) : Prop :=
  cursor.source.utf8ByteSize < cursor.current

namespace Past

variable {cursor : Cursor}

theorem atEnd_eq (past : cursor.Past) : cursor.atEnd = true :=
  decide_eq_true (Nat.le_of_lt past)

theorem peek_eq (past : cursor.Past) : cursor.peek = .error .notAtBoundary := by
  rw [peek, boundary_eq_error past]
  rfl

theorem peekNext_eq (past : cursor.Past) : cursor.peekNext = .error .notAtBoundary := by
  rw [peekNext, boundary_eq_error past]
  rfl

theorem on_advance (past : cursor.Past) :
    advance.on cursor = (.error .notAtBoundary, cursor) := by
  rw [advance, Action.on_bind, Action.on_reading, past.peek_eq]

theorem lexeme_eq (past : cursor.Past) : cursor.lexeme = .error .notAtBoundary :=
  slice_eq_error past

theorem remainder_eq (past : cursor.Past) : cursor.remainder = .error .notAtBoundary := by
  rw [remainder, slice, boundary_eq_error past]
  rfl

theorem on_matchChar (past : cursor.Past) (expected : Char) :
    (matchChar expected).on cursor = (.ok false, cursor) := by
  have unseen : cursor.sees expected = .ok false := if_pos past.atEnd_eq
  rw [matchChar, Action.on_bind, Action.on_reading, unseen]
  rfl

end Past

end Cursor

/-! ## Faults that move nothing -/

/-- Whether an action that faults leaves the state as it was before the action. -/
def Action.FaultsInPlace {σ α : Type} (action : Action σ α) : Prop :=
  ∀ state fault, (action.on state).1 = .error fault → (action.on state).2 = state

section FaultsInPlace

variable {σ α β : Type}

theorem faultsInPlace_reading (read : σ → Except Fault α) :
    (Action.reading read).FaultsInPlace := by
  intro state fault _
  rw [Action.on_reading]

/-- Where an action faults in its first part only, what comes after that part may change
the state. -/
theorem Action.FaultsInPlace.bind {action : Action σ α} {continuation : α → Action σ β}
    (inPlace : action.FaultsInPlace)
    (answers : ∀ value state, ∃ answer after,
      (continuation value).on state = (.ok answer, after)) :
    Action.FaultsInPlace (action >>= continuation) := by
  intro state fault faulted
  have unmoved := inPlace state
  rw [Action.on_bind] at faulted ⊢
  generalize action.on state = ran at faulted unmoved ⊢
  obtain ⟨result, after⟩ := ran
  cases result with
  | ok value =>
      obtain ⟨answer, last, answered⟩ := answers value after
      dsimp only at faulted
      rw [answered] at faulted
      cases faulted
  | error earlier => exact unmoved earlier rfl

/-- Taking a character reads it before it moves. -/
theorem faultsInPlace_advance : Cursor.advance.FaultsInPlace :=
  (faultsInPlace_reading Cursor.peek).bind fun c cursor => ⟨c, cursor.moveBy c, rfl⟩

theorem faultsInPlace_matchChar (expected : Char) :
    (Cursor.matchChar expected).FaultsInPlace := by
  apply (faultsInPlace_reading (Cursor.sees expected)).bind
  intro found cursor
  cases found with
  | true => exact ⟨true, cursor.moveBy expected, rfl⟩
  | false => exact ⟨false, cursor, rfl⟩

end FaultsInPlace

namespace Lexer

theorem faultsInPlace_onCursor {α : Type} {action : Action Cursor α}
    (inPlace : action.FaultsInPlace) (answer : α → Answer) :
    (onCursor action answer).FaultsInPlace := by
  intro lexer fault faulted
  have unmoved := inPlace lexer.cursor
  rw [on_onCursor] at faulted ⊢
  generalize action.on lexer.cursor = ran at faulted unmoved ⊢
  obtain ⟨result, cursor⟩ := ran
  cases result with
  | ok value => cases faulted
  | error earlier =>
      have same : cursor = lexer.cursor := unmoved earlier rfl
      rw [same]

theorem faultsInPlace_action (call : Call) : call.action.FaultsInPlace := by
  cases call with
  | advance =>
      rw [Call.action]
      exact faultsInPlace_onCursor faultsInPlace_advance _
  | matchChar expected =>
      rw [Call.action]
      exact faultsInPlace_onCursor (faultsInPlace_matchChar expected) _
  | atEnd | peek | peekNext | lexeme | remainder =>
      rw [Call.action]
      exact faultsInPlace_onCursor (faultsInPlace_reading _) _
  | push token =>
      intro lexer fault faulted
      cases faulted

/-- A call that faults has moved nothing and pushed nothing. -/
theorem perform_of_fault {lexer : Lexer} {call : Call} {fault : Fault}
    (faulted : (lexer.perform call).1 = .error fault) : (lexer.perform call).2 = lexer :=
  faultsInPlace_action call lexer fault faulted

/-! ## Calls past the text -/

/-- The calls that read the text. -/
def readingCalls : List Call :=
  [.advance, .peek, .peekNext, .lexeme, .remainder]

section Past

variable {lexer : Lexer} {call : Call}

theorem fault_of_past (past : lexer.cursor.Past) (reads : call ∈ readingCalls) :
    (lexer.perform call).1 = .error .notAtBoundary := by
  simp only [readingCalls, List.mem_cons, List.not_mem_nil, or_false] at reads
  rcases reads with rfl | rfl | rfl | rfl | rfl
  · rw [perform, Call.action, on_onCursor, past.on_advance]
    rfl
  · rw [perform, Call.action, on_onCursor_reading, past.peek_eq]
    rfl
  · rw [perform, Call.action, on_onCursor_reading, past.peekNext_eq]
    rfl
  · rw [perform, Call.action, on_onCursor_reading, past.lexeme_eq]
    rfl
  · rw [perform, Call.action, on_onCursor_reading, past.remainder_eq]
    rfl

theorem perform_matchChar_of_past (past : lexer.cursor.Past) (expected : Char) :
    lexer.perform (.matchChar expected) = (.ok (.truth false), lexer) := by
  rw [perform, Call.action, on_onCursor, past.on_matchChar]
  rfl

/-- Past the text, a call that does not read it is answered. -/
theorem exists_perform_of_past (past : lexer.cursor.Past) (readsNot : call ∉ readingCalls) :
    ∃ answer after, lexer.perform call = (.ok answer, after) ∧
      after.cursor = lexer.cursor ∧ after.line = lexer.line := by
  cases call with
  | atEnd => exact ⟨.truth lexer.cursor.atEnd, lexer, rfl, rfl, rfl⟩
  | matchChar expected =>
      exact ⟨.truth false, lexer, perform_matchChar_of_past past expected, rfl, rfl⟩
  | push token => exact ⟨.done, lexer.push token, rfl, rfl, rfl⟩
  | advance | peek | peekNext | lexeme | remainder =>
      exact absurd (by simp [readingCalls]) readsNot

/-- No call moves a lexer that is past its text. -/
theorem perform_of_past (past : lexer.cursor.Past) (call : Call) :
    (lexer.perform call).2.cursor = lexer.cursor ∧
      (lexer.perform call).2.line = lexer.line ∧
      ((∃ fault, (lexer.perform call).1 = .error fault) ↔ call ∈ readingCalls) := by
  by_cases reads : call ∈ readingCalls
  · have faulted := fault_of_past past reads
    rw [perform_of_fault faulted, faulted]
    exact ⟨rfl, rfl, fun _ => reads, fun _ => ⟨_, rfl⟩⟩
  · obtain ⟨answer, after, performed, cursorEq, lineEq⟩ := exists_perform_of_past past reads
    rw [performed]
    refine ⟨cursorEq, lineEq, ?_⟩
    constructor
    · rintro ⟨fault, isFault⟩
      cases isFault
    · intro isReading
      exact absurd isReading reads

theorem performAll_of_past (past : lexer.cursor.Past) (calls : List Call) :
    (lexer.performAll calls).2.cursor = lexer.cursor ∧
      (lexer.performAll calls).2.line = lexer.line := by
  induction calls generalizing lexer with
  | nil => exact ⟨rfl, rfl⟩
  | cons call calls ih =>
      obtain ⟨cursorEq, lineEq, -⟩ := perform_of_past past call
      have nextPast : (lexer.perform call).2.cursor.Past := by
        rw [cursorEq]
        exact past
      obtain ⟨lastCursor, lastLine⟩ := ih nextPast
      exact ⟨lastCursor.trans cursorEq, lastLine.trans lineEq⟩

theorem scanTokens_of_atEnd (ended : lexer.cursor.atEnd = true) :
    lexer.scanTokens = .ok lexer.found := by
  rw [scanTokens, scanAll, if_pos ended]
  rfl

end Past

/-! ## The way past the text -/

/-- Whether one of a sequence of calls takes a character where none is left. -/
def Overruns (lexer : Lexer) (calls : List Call) : Prop :=
  ∃ earlier later, calls = earlier ++ .advance :: later ∧
    (lexer.performAll earlier).2.cursor.atEnd = true

section Overrun

variable {lexer : Lexer} {source : String} {call : Call} {calls : List Call}

theorem not_overruns_nil (lexer : Lexer) : ¬ lexer.Overruns [] := by
  rintro ⟨earlier, later, callsEq, -⟩
  exact absurd callsEq.symm (by simp)

theorem overruns_cons_iff :
    lexer.Overruns (call :: calls) ↔
      (call = .advance ∧ lexer.cursor.atEnd = true) ∨
        (lexer.perform call).2.Overruns calls := by
  constructor
  · rintro ⟨earlier, later, callsEq, ended⟩
    cases earlier with
    | nil =>
        cases callsEq
        exact Or.inl ⟨rfl, ended⟩
    | cons first earlier =>
        cases callsEq
        exact Or.inr ⟨earlier, later, rfl, ended⟩
  · rintro (⟨rfl, ended⟩ | ⟨earlier, later, rfl, ended⟩)
    · exact ⟨[], calls, rfl, ended⟩
    · exact ⟨call :: earlier, later, rfl, ended⟩

theorem not_careful_iff :
    ¬ call.Careful lexer ↔ call = .advance ∧ lexer.cursor.atEnd = true := by
  unfold Call.Careful
  rw [Classical.not_imp, Bool.not_eq_false]

/-- Calls are careful as long as none of them goes past the text. -/
theorem carefulCalls_iff : lexer.CarefulCalls calls ↔ ¬ lexer.Overruns calls := by
  induction calls generalizing lexer with
  | nil => exact ⟨fun _ => not_overruns_nil lexer, fun _ => trivial⟩
  | cons call calls ih =>
      rw [overruns_cons_iff, ← not_careful_iff, not_or, not_not, CarefulCalls, ih]

/-- Where no character is left, `noCharacter` is taken, and the cursor goes one byte past
the text. -/
theorem perform_advance_of_atEnd (stands : lexer.AtFirstLexeme source)
    (ended : lexer.cursor.atEnd = true) :
    ∃ after, lexer.perform .advance = (.ok (.character noCharacter), after) ∧
      after.cursor = ⟨source, 0, source.utf8ByteSize + 1⟩ ∧ after.line = 1 := by
  obtain ⟨taken, left, sourceEq, splits, lineEq⟩ := stands
  have leftEq : left = [] := by
    rw [splits.atEnd_eq] at ended
    exact List.isEmpty_iff.1 ended
  rw [leftEq] at splits
  have size := splits.utf8ByteSize_eq
  refine ⟨{ lexer with cursor := lexer.cursor.moveBy noCharacter }, ?_, ?_, lineEq⟩
  · rw [perform, Call.action, on_onCursor, splits.on_advance]
    rfl
  · rw [byteCount_nil, Nat.add_zero, sourceEq] at size
    have startEq : lexer.cursor.start = 0 := splits.start_eq.trans byteCount_nil
    rw [Cursor.moveBy, size, ← sourceEq, ← startEq]
    rfl

/-- A call that goes past the text is not undone by the calls after it. -/
theorem Overruns.cursor_eq (stands : lexer.AtFirstLexeme source)
    (overruns : lexer.Overruns calls) :
    (lexer.performAll calls).2.cursor = ⟨source, 0, source.utf8ByteSize + 1⟩ ∧
      (lexer.performAll calls).2.line = 1 := by
  induction calls generalizing lexer with
  | nil => exact absurd overruns (not_overruns_nil lexer)
  | cons call calls ih =>
      by_cases careful : call.Careful lexer
      · obtain ⟨answer, after, performed, afterStands⟩ := exists_perform stands careful
        rw [overruns_cons_iff, ← not_careful_iff, performed] at overruns
        rw [performAll, performed]
        exact ih afterStands (overruns.resolve_left (not_not_intro careful))
      · obtain ⟨rfl, ended⟩ := not_careful_iff.1 careful
        obtain ⟨after, performed, cursorEq, lineEq⟩ :=
          perform_advance_of_atEnd stands ended
        have past : after.cursor.Past := by
          rw [cursorEq]
          exact Nat.lt_succ_self _
        obtain ⟨lastCursor, lastLine⟩ := performAll_of_past past calls
        rw [performAll, performed]
        exact ⟨lastCursor.trans cursorEq, lastLine.trans lineEq⟩

theorem Overruns.past (stands : lexer.AtFirstLexeme source)
    (overruns : lexer.Overruns calls) : (lexer.performAll calls).2.cursor.Past := by
  rw [(overruns.cursor_eq stands).1]
  exact Nat.lt_succ_self _

theorem AtFirstLexeme.performAll (stands : lexer.AtFirstLexeme source)
    (inside : ¬ lexer.Overruns calls) : (lexer.performAll calls).2.AtFirstLexeme source :=
  (carefulCalls_iff.2 inside).atFirstLexeme stands

/-! ## The faults of a sequence -/

/-- A lexer that stands in its text answers every call, also the one that leaves the text. -/
theorem exists_answer_of_stands (stands : lexer.AtFirstLexeme source) (call : Call) :
    ∃ answer, (lexer.perform call).1 = .ok answer := by
  by_cases careful : call.Careful lexer
  · obtain ⟨answer, after, performed, -⟩ := exists_perform stands careful
    exact ⟨answer, by rw [performed]⟩
  · obtain ⟨rfl, ended⟩ := not_careful_iff.1 careful
    obtain ⟨after, performed, -⟩ := perform_advance_of_atEnd stands ended
    exact ⟨.character noCharacter, by rw [performed]⟩

/-- After a sequence of calls, just the calls that read the text fault, and just if the
sequence has gone past it. -/
theorem exists_fault_iff (stands : lexer.AtFirstLexeme source) :
    (∃ fault, ((lexer.performAll calls).2.perform call).1 = .error fault) ↔
      call ∈ readingCalls ∧ lexer.Overruns calls := by
  by_cases overruns : lexer.Overruns calls
  · obtain ⟨-, -, faultsIff⟩ := perform_of_past (overruns.past stands) call
    rw [faultsIff]
    exact ⟨fun reads => ⟨reads, overruns⟩, And.left⟩
  · obtain ⟨answer, answered⟩ := exists_answer_of_stands (stands.performAll overruns) call
    rw [answered]
    constructor
    · rintro ⟨fault, isFault⟩
      cases isFault
    · rintro ⟨-, others⟩
      exact absurd others overruns

theorem getElem?_performAll (lexer : Lexer) (earlier : List Call) (call : Call)
    (later : List Call) :
    (lexer.performAll (earlier ++ call :: later)).1[earlier.length]? =
      some ((lexer.performAll earlier).2.perform call).1 := by
  induction earlier generalizing lexer with
  | nil => rfl
  | cons first earlier ih => exact ih (lexer.perform first).2

/-- Past the text a scan gives back what was pushed. -/
theorem Overruns.scanTokens_eq {file : Option String}
    (overruns : (ofSource source file).Overruns calls) :
    ((ofSource source file).performAll calls).2.scanTokens =
      .ok ⟨calls.filterMap Call.pushed? ++ [.endOfText 1], []⟩ := by
  have initial := atFirstLexeme_ofSource source file
  have gains := gains_performAll (ofSource source file) calls
  have lastLine : ((ofSource source file).performAll calls).2.line = 1 :=
    (overruns.cursor_eq initial).2
  rw [scanTokens_of_atEnd (overruns.past initial).atEnd_eq, found, Array.toList_push,
    gains.tokens_eq, gains.diagnostics_eq, lastLine]
  rfl

end Overrun

/-- A call faults just if it reads the text after an earlier call has gone past it. Until
then a scan ends without a fault and without a wrap of the line count; from then on it
finds nothing but the tokens that were pushed. -/
theorem faults_iff_overruns (source : String) (file : Option String) (calls : List Call)
    (bounded : source.toList.count lineFeed ≤ UInt32.size - 2) :
    let fresh := ofSource source file
    let lexer := (fresh.performAll calls).2
    (∀ call later, ∃ answer,
      (fresh.performAll (calls ++ call :: later)).1[calls.length]? = some answer ∧
        ((∃ fault, answer = .error fault) ↔
          call ∈ [.advance, .peek, .peekNext, .lexeme, .remainder] ∧
            fresh.Overruns calls)) ∧
    (∀ call fault, (lexer.perform call).1 = .error fault →
      (lexer.perform call).2 = lexer) ∧
    (¬ fresh.Overruns calls →
      (lexer.cursor.atEnd = true →
        (lexer.perform .advance).1 = .ok (.character '\x00')) ∧
      (∃ scan, lexer.scanTokens = .ok scan) ∧
      ∀ stage, Stage.Reaches ⟨lexer, .between⟩ stage →
        (stage.finished = false → ∃ next, stage.step = .ok next) ∧
        ∃ passed, slice source lexer.cursor.current stage.lexer.cursor.current =
            .ok passed ∧
          stage.lexer.line.toNat = 1 + passed.toList.count lineFeed) ∧
    (fresh.Overruns calls →
      lexer.cursor = ⟨source, 0, source.utf8ByteSize + 1⟩ ∧
      (∀ later, (lexer.performAll later).2.cursor.atEnd = true) ∧
      (∀ expected, lexer.perform (.matchChar expected) = (.ok (.truth false), lexer)) ∧
      (∀ token, (lexer.perform (.push token)).1 = .ok .done ∧
        (lexer.perform (.push token)).2.tokens.toList = lexer.tokens.toList ++ [token]) ∧
      lexer.scanTokens = .ok ⟨calls.filterMap Call.pushed? ++ [.endOfText 1], []⟩) := by
  intro fresh lexer
  have initial : fresh.AtFirstLexeme source := atFirstLexeme_ofSource source file
  refine ⟨?_, fun call fault => perform_of_fault, ?_, ?_⟩
  · intro call later
    exact ⟨_, getElem?_performAll fresh calls call later, exists_fault_iff initial⟩
  · intro inside
    have stands : lexer.AtFirstLexeme source := initial.performAll inside
    refine ⟨?_, ?_, ?_⟩
    · intro ended
      obtain ⟨after, performed, -⟩ := perform_advance_of_atEnd stands ended
      rw [performed]
      rfl
    · obtain ⟨taken, left, -, splits, lineEq⟩ := stands
      have gains := gains_performAll fresh calls
      exact ⟨_, scanTokens_of_splits file splits gains.label_eq lineEq⟩
    · intro stage reaches
      exact ⟨stands.goes_of_reaches reaches, stands.toNat_line_of_reaches bounded reaches⟩
  · intro overruns
    have past : lexer.cursor.Past := overruns.past initial
    refine ⟨(overruns.cursor_eq initial).1, ?_, ?_, ?_, overruns.scanTokens_eq⟩
    · intro later
      rw [(performAll_of_past past later).1]
      exact past.atEnd_eq
    · intro expected
      exact perform_matchChar_of_past past expected
    · intro token
      exact ⟨rfl, Array.toList_push⟩

/-- The second of two calls that take a character goes past a text of one line feed. -/
theorem faults_after_one_line_feed :
    let inside : List Call := [.advance, .push (.endOfText 8)]
    let past : List Call := inside ++ [.advance, .push (.endOfText 9)]
    "\n".toList.count lineFeed ≤ UInt32.size - 2 ∧
    ¬ (ofSource "\n" none).Overruns inside ∧
    (((ofSource "\n" none).performAll inside).2.perform .advance).1 =
      .ok (.character '\x00') ∧
    (ofSource "\n" none).Overruns past ∧
    (∃ answer, ((ofSource "\n" none).performAll (past ++ [.peek])).1[4]? = some answer ∧
      ∃ fault, answer = .error fault) ∧
    ((ofSource "\n" none).performAll past).2.scanTokens =
      .ok ⟨[.endOfText 8, .endOfText 9, .endOfText 1], []⟩ := by
  intro inside past
  have bounded : "\n".toList.count lineFeed ≤ UInt32.size - 2 := by decide
  have careful : (ofSource "\n" none).CarefulCalls inside := ⟨fun _ => rfl, nofun, trivial⟩
  have ended : ((ofSource "\n" none).performAll inside).2.cursor.atEnd = true := by
    decide +kernel
  have overruns : (ofSource "\n" none).Overruns past :=
    ⟨inside, [.push (.endOfText 9)], rfl, ended⟩
  obtain ⟨-, -, goesOn, -⟩ := faults_iff_overruns "\n" none inside bounded
  obtain ⟨faults, -, -, ends⟩ := faults_iff_overruns "\n" none past bounded
  obtain ⟨-, -, -, -, scanned⟩ := ends overruns
  refine ⟨bounded, carefulCalls_iff.1 careful, ?_, overruns, ?_, scanned⟩
  · exact (goesOn (carefulCalls_iff.1 careful)).1 ended
  · obtain ⟨answer, isAnswer, faultsIff⟩ := faults .peek []
    exact ⟨answer, isAnswer, faultsIff.2 ⟨by simp, overruns⟩⟩

end Lexer

end LoxScanner
