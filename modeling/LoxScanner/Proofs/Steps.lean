import LoxScanner.Proofs.Lexer

/-!
# A scan character by character

`Lexer.Stage.step` takes one character at a time, with each loop over a run of
characters cut into its turns. A turn asks for the next character even where none is
left, and takes what it is given: only `noCharacter` keeps it from going on. The
stages between two segments are those of `Lexer.scanSegment`.
-/

namespace LoxScanner

namespace Lexer

/-! ## Stages -/

/-- What a scan is in the middle of. A string keeps the line of its opening quote. -/
inductive Phase
  | between
  | string (opening : UInt32)
  | whole
  | fraction
  | word
  | remark
  deriving DecidableEq

/-- A scan between two characters. -/
structure Stage where
  lexer : Lexer
  phase : Phase

/-- Takes a character, and counts the line that a line feed ends. -/
def take (lexer : Lexer) : Except Fault (Char × Lexer) := do
  let (c, cursor) ← lexer.cursor.next
  let line := if c = lineFeed then lexer.line + 1 else lexer.line
  return (c, { lexer with cursor, line })

def openRemark (lexer : Lexer) : Except Fault Stage := do
  let (found, cursor) ← (Cursor.matchChar '/').outcome lexer.cursor
  if found then return ⟨{ lexer with cursor }, .remark⟩
  else
    let after ← lexer.pushLexeme cursor (lexer.symbolToken .slash)
    return ⟨after, .between⟩

def openMark (lexer : Lexer) (mark : Symbol) : Except Fault Stage := do
  let after ← lexer.scanMark mark
  return ⟨after, .between⟩

/-- Opens the segment that starts with a character which has been taken. -/
def openAfter (lexer : Lexer) (first : Char) : Except Fault Stage :=
  if first.isWhitespace then .ok ⟨lexer, .between⟩
  else if first = quote then .ok ⟨lexer, .string lexer.line⟩
  else if first.isDigit then .ok ⟨lexer, .whole⟩
  else if isWordStart first then .ok ⟨lexer, .word⟩
  else
    match Symbol.ofChar? first with
    | some .slash => lexer.openRemark
    | some mark => lexer.openMark mark
    | none => .ok ⟨lexer.report (.unexpectedCharacter first) lexer.line, .between⟩

def openSegment (lexer : Lexer) : Except Fault Stage := do
  let (first, after) ← { lexer with cursor := lexer.cursor.mark }.take
  after.openAfter first

def closeString (lexer : Lexer) (opening : UInt32) : Except Fault Stage :=
  if lexer.cursor.atEnd then do
    let contents ←
      slice lexer.cursor.source (lexer.cursor.start + 1) lexer.cursor.current
    return ⟨lexer.report (.unterminatedString contents) opening, .between⟩
  else do
    let (_, closed) ← lexer.cursor.next
    let contents ← slice closed.source (closed.start + 1) (closed.current - 1)
    let after ← lexer.pushLexeme closed fun text =>
      ⟨.string, text, some (.string contents), opening⟩
    return ⟨after, .between⟩

def closeNumber (lexer : Lexer) : Except Fault Stage := do
  let after ← lexer.pushLexeme lexer.cursor lexer.numberToken
  return ⟨after, .between⟩

def closeWhole (lexer : Lexer) : Except Fault Stage := do
  let point ← lexer.cursor.peek
  let digit ← lexer.cursor.peekNext
  if point = '.' ∧ digit.isDigit then
    let (_, after) ← lexer.take
    return ⟨after, .fraction⟩
  else lexer.closeNumber

def closeWord (lexer : Lexer) : Except Fault Stage := do
  let after ← lexer.pushLexeme lexer.cursor lexer.wordToken
  return ⟨after, .between⟩

namespace Phase

/-- Whether a phase goes on with a character that is read at a cursor. A string and a
comment ask for the end of the text, because what is read there is not what ends
them. -/
def goesOn : Phase → Cursor → Char → Bool
  | between, _, _ => false
  | string _, cursor, c => c ≠ quote && !cursor.atEnd
  | whole, _, c => c.isDigit
  | fraction, _, c => c.isDigit
  | word, _, c => isWordChar c
  | remark, cursor, c => c ≠ lineFeed && !cursor.atEnd

def close (lexer : Lexer) : Phase → Except Fault Stage
  | between => lexer.openSegment
  | string opening => lexer.closeString opening
  | whole => lexer.closeWhole
  | fraction => lexer.closeNumber
  | word => lexer.closeWord
  | remark => .ok ⟨lexer, between⟩

/-- The characters of the run that a phase is in. -/
def inRun : Phase → Char → Bool
  | between, _ => false
  | string _, c => c ≠ quote
  | whole, c => c.isDigit
  | fraction, c => c.isDigit
  | word, c => isWordChar c
  | remark, c => c ≠ lineFeed

end Phase

namespace Stage

/-- Opens a segment, takes a character that the segment goes on with, or closes the
segment. -/
def step (stage : Stage) : Except Fault Stage :=
  if stage.phase = .between then stage.lexer.openSegment
  else do
    let c ← stage.lexer.cursor.peek
    if stage.phase.goesOn stage.lexer.cursor c then
      let (_, after) ← stage.lexer.take
      return ⟨after, stage.phase⟩
    else stage.phase.close stage.lexer

/-- Whether a scan has come to the end of its text, with no segment open. -/
def finished : Stage → Bool
  | ⟨lexer, .between⟩ => lexer.cursor.atEnd
  | _ => false

/-- The stages that come after a stage. -/
inductive Reaches : Stage → Stage → Prop
  | refl (stage : Stage) : Reaches stage stage
  | step {stage next last : Stage} :
      stage.finished = false → stage.step = .ok next → Reaches next last →
      Reaches stage last

/-- A run from one stage to another, all of whose stages satisfy a condition. -/
inductive Walk (holds : Stage → Prop) : Stage → Stage → Prop
  | refl {stage : Stage} : holds stage → Walk holds stage stage
  | step {stage next last : Stage} :
      holds stage → stage.finished = false → stage.step = .ok next →
      Walk holds next last → Walk holds stage last

namespace Walk

variable {holds : Stage → Prop} {first second third : Stage}

theorem trans (one : Walk holds first second) (other : Walk holds second third) :
    Walk holds first third := by
  induction one with
  | refl => exact other
  | step here going stepEq _ ih => exact .step here going stepEq (ih other)

theorem holds_last (walk : Walk holds first second) : holds second := by
  induction walk with
  | refl here => exact here
  | step _ _ _ _ ih => exact ih

theorem snoc (walk : Walk holds first second) (going : second.finished = false)
    (stepEq : second.step = .ok third) (there : holds third) : Walk holds first third :=
  walk.trans (.step walk.holds_last going stepEq (.refl there))

theorem reaches (walk : Walk holds first second) : first.Reaches second := by
  induction walk with
  | refl => exact .refl _
  | step _ going stepEq _ ih => exact .step going stepEq ih

/-- A step has one outcome, so a run that ends meets all that its first stage
reaches. -/
theorem holds_of_reaches (walk : Walk holds first second) (ended : second.finished = true)
    {stage : Stage} (reaches : first.Reaches stage) :
    holds stage ∧ (stage.finished = false → ∃ next, stage.step = .ok next) := by
  induction walk with
  | @refl last here =>
      cases reaches with
      | refl => exact ⟨here, fun going => absurd going (by simp [ended])⟩
      | step going _ _ =>
          rw [ended] at going
          cases going
  | @step first next last here going stepEq _ ih =>
      cases reaches with
      | refl => exact ⟨here, fun _ => ⟨next, stepEq⟩⟩
      | @step _ other _ _ otherEq later =>
          rw [stepEq] at otherEq
          cases otherEq
          exact ih ended later

end Walk

end Stage

/-! ## Where a lexer stands -/

/-- A lexer whose cursor has passed a text. -/
def moveOver (lexer : Lexer) (cursor : Cursor) (text : List Char) : Lexer :=
  { lexer with cursor, line := lineAfter lexer.line text }

theorem moveOver_moveOver (lexer : Lexer) (cursor later : Cursor)
    (text more : List Char) :
    (lexer.moveOver cursor text).moveOver later more =
      lexer.moveOver later (text ++ more) := by
  simp only [moveOver, lineAfter_lineAfter]

theorem moveOver_nil (lexer : Lexer) : lexer.moveOver lexer.cursor [] = lexer := by
  simp only [moveOver, lineAfter_nil]

theorem moveOver_of_not_mem {lexer : Lexer} {text : List Char}
    (oneLine : lineFeed ∉ text) (cursor : Cursor) :
    lexer.moveOver cursor text = { lexer with cursor } := by
  rw [moveOver, lineAfter_of_not_mem oneLine]

/-- `lexer.Stands source read line before taken left` says that the cursor is between
`before ++ taken` and `left` in `source`, with `taken` as the lexeme so far, and that
`line` is counted on over what comes after `read`. -/
structure Stands (lexer : Lexer) (source : String) (read : List Char) (line : UInt32)
    (before taken left : List Char) : Prop where
  source_eq : lexer.cursor.source = source
  splits : lexer.cursor.Splits before taken left
  counted : ∃ passed, before ++ taken = read ++ passed ∧
    lexer.line = lineAfter line passed

/-- Whether a lexer stands anywhere in a text, after `read`. -/
def Stage.StandsAfter (source : String) (read : List Char) (line : UInt32)
    (stage : Stage) : Prop :=
  ∃ before taken left, stage.lexer.Stands source read line before taken left

theorem not_mem_singleton {c : Char} (notLineFeed : c ≠ lineFeed) : lineFeed ∉ [c] :=
  fun member => notLineFeed (List.mem_singleton.1 member).symm

theorem lineAfter_singleton (line : UInt32) (c : Char) :
    lineAfter line [c] = if c = lineFeed then line + 1 else line := by
  by_cases isLineFeed : c = lineFeed
  · rw [if_pos isLineFeed, isLineFeed, lineAfter, List.count_singleton_self]
    rfl
  · rw [if_neg isLineFeed, lineAfter_of_not_mem (not_mem_singleton isLineFeed)]

section Standing

variable {lexer : Lexer} {source : String}
  {read before taken left others : List Char} {line : UInt32} {c : Char}
  {cursor : Cursor}

theorem take_eq (splits : lexer.cursor.Splits before taken (c :: others)) :
    lexer.take = .ok (c, lexer.moveOver (lexer.cursor.moveBy c) [c]) := by
  rw [take, splits.next_eq, moveOver, lineAfter_singleton]
  rfl

namespace Stands

theorem moveOver {text : List Char}
    (stands : lexer.Stands source read line before taken left)
    (sameSource : cursor.source = lexer.cursor.source)
    (splits : cursor.Splits before (taken ++ text) others) :
    (lexer.moveOver cursor text).Stands source read line before (taken ++ text)
      others := by
  obtain ⟨passed, whole, lineEq⟩ := stands.counted
  refine ⟨sameSource.trans stands.source_eq, splits, passed ++ text, ?_, ?_⟩
  · rw [← List.append_assoc, whole, List.append_assoc]
  · rw [← lineAfter_lineAfter, ← lineEq]
    rfl

theorem take (stands : lexer.Stands source read line before taken (c :: others)) :
    (lexer.moveOver (lexer.cursor.moveBy c) [c]).Stands source read line before
      (taken ++ [c]) others :=
  stands.moveOver rfl stands.splits.moveBy

/-- A character that is no line feed leaves the line as it is. -/
theorem take_of_ne (notLineFeed : c ≠ lineFeed)
    (stands : lexer.Stands source read line before taken (c :: others)) :
    { lexer with cursor := lexer.cursor.moveBy c }.Stands source read line before
      (taken ++ [c]) others := by
  have takenStands := stands.take
  rw [moveOver_of_not_mem (not_mem_singleton notLineFeed)] at takenStands
  exact takenStands

theorem mark (stands : lexer.Stands source read line before taken left) :
    { lexer with cursor := lexer.cursor.mark }.Stands source read line
      (before ++ taken) [] left := by
  obtain ⟨passed, whole, lineEq⟩ := stands.counted
  refine ⟨stands.source_eq, stands.splits.mark, passed, ?_, lineEq⟩
  rw [List.append_nil, whole]

theorem standsAfter (stands : lexer.Stands source read line before taken left)
    (phase : Phase) :
    Stage.StandsAfter source read line ⟨lexer, phase⟩ :=
  ⟨before, taken, left, stands⟩

end Stands

end Standing

/-! ## Runs of characters -/

section Runs

variable {lexer : Lexer} {phase : Phase} {source : String}
  {read before taken left others : List Char} {line : UInt32} {c : Char}

theorem Phase.goesOn_cons (phase : Phase) {cursor : Cursor}
    (splits : cursor.Splits before taken (c :: others)) :
    phase.goesOn cursor c = phase.inRun c := by
  have notEnded : cursor.atEnd = false := splits.atEnd_eq
  cases phase <;> simp [goesOn, inRun, notEnded]

/-- At the end of the text a phase is left, whether it asks for the end or looks at
what it reads there. -/
theorem Phase.goesOn_noCharacter (phase : Phase) {cursor : Cursor}
    (splits : cursor.Splits before taken []) :
    phase.goesOn cursor noCharacter = false := by
  have ended : cursor.atEnd = true := splits.atEnd_eq
  cases phase
  case string | remark => simp [goesOn, ended]
  all_goals rfl

theorem step_of_inRun (notBetween : phase ≠ .between)
    (splits : lexer.cursor.Splits before taken (c :: others))
    (inRun : phase.inRun c = true) :
    Stage.step ⟨lexer, phase⟩ =
      .ok ⟨lexer.moveOver (lexer.cursor.moveBy c) [c], phase⟩ := by
  have peeked : lexer.cursor.peek = .ok c := splits.peek_eq
  have goesOn : phase.goesOn lexer.cursor c = true := by
    rw [phase.goesOn_cons splits, inRun]
  rw [Stage.step, if_neg notBetween]
  simp only [bind, Except.bind, peeked, goesOn, if_true, take_eq splits]
  rfl

theorem step_of_ended (notBetween : phase ≠ .between)
    (splits : lexer.cursor.Splits before taken left)
    (ended : ∀ c, left.head? = some c → phase.inRun c = false) :
    Stage.step ⟨lexer, phase⟩ = phase.close lexer := by
  have stays : phase.goesOn lexer.cursor (left.head?.getD noCharacter) = false := by
    cases left with
    | nil => exact phase.goesOn_noCharacter splits
    | cons c others => exact (phase.goesOn_cons splits).trans (ended c rfl)
  rw [Stage.step, if_neg notBetween]
  simp only [bind, Except.bind, splits.peek_eq, stays, Bool.false_eq_true, if_false]

theorem walk_over {run : List Char} {cursor : Cursor} (notBetween : phase ≠ .between)
    (inside : ∀ c ∈ run, phase.inRun c = true)
    (stands : lexer.Stands source read line before taken (run ++ left))
    (splits : cursor.Splits before (taken ++ run) left) :
    Stage.Walk (Stage.StandsAfter source read line) ⟨lexer, phase⟩
      ⟨lexer.moveOver cursor run, phase⟩ := by
  have going : ∀ lexer, Stage.finished ⟨lexer, phase⟩ = false := by
    intro lexer
    cases phase
    case between => exact absurd rfl notBetween
    all_goals rfl
  -- On the run still to be taken; what has been taken grows with each step.
  induction run generalizing lexer taken with
  | nil =>
      rw [List.append_nil] at splits
      rw [splits.eq stands.splits, moveOver_nil]
      exact .refl (stands.standsAfter phase)
  | cons c others ih =>
      have inRun : phase.inRun c = true := inside c (List.mem_cons_self ..)
      have othersInside : ∀ c ∈ others, phase.inRun c = true := by
        intro d member
        exact inside d (List.mem_cons_of_mem c member)
      rw [List.append_cons] at splits
      have walk := ih othersInside stands.take splits
      rw [moveOver_moveOver] at walk
      exact .step (stands.standsAfter phase) (going lexer)
        (step_of_inRun notBetween stands.splits inRun) walk

/-- A phase takes its run character by character, to where the cursor stops that
skips the run, and is closed there. -/
theorem exists_walk_run (phase : Phase) (notBetween : phase ≠ .between)
    (stands : lexer.Stands source read line before taken left) :
    ∃ cursor, lexer.cursor.skipWhile phase.inRun = .ok cursor ∧
      (lexer.moveOver cursor (left.takeWhile phase.inRun)).Stands source read line before
        (taken ++ left.takeWhile phase.inRun) (left.dropWhile phase.inRun) ∧
      Stage.Walk (Stage.StandsAfter source read line) ⟨lexer, phase⟩
        ⟨lexer.moveOver cursor (left.takeWhile phase.inRun), phase⟩ ∧
      Stage.step ⟨lexer.moveOver cursor (left.takeWhile phase.inRun), phase⟩ =
        phase.close (lexer.moveOver cursor (left.takeWhile phase.inRun)) := by
  obtain ⟨cursor, skipped, splits⟩ := stands.splits.exists_skipWhile phase.inRun
  have sameSource := (Cursor.leads_of_skipWhile skipped).source_eq
  have laterStands := stands.moveOver sameSource splits
  have closes := step_of_ended notBetween laterStands.splits
    fun c isHead => eq_false_of_head?_dropWhile isHead
  rw [← List.takeWhile_append_dropWhile (p := phase.inRun) (l := left)] at stands
  have walk := walk_over notBetween (fun c member => List.mem_takeWhile_imp member)
    stands splits
  exact ⟨cursor, skipped, laterStands, walk, closes⟩

/-- A run that stops at line feeds leaves the line as it is. -/
theorem exists_walk_run_of_stops (phase : Phase) (notBetween : phase ≠ .between)
    (stops : phase.inRun lineFeed = false)
    (stands : lexer.Stands source read line before taken left) :
    ∃ cursor, lexer.cursor.skipWhile phase.inRun = .ok cursor ∧
      { lexer with cursor }.Stands source read line before
        (taken ++ left.takeWhile phase.inRun) (left.dropWhile phase.inRun) ∧
      Stage.Walk (Stage.StandsAfter source read line) ⟨lexer, phase⟩
        ⟨{ lexer with cursor }, phase⟩ ∧
      Stage.step ⟨{ lexer with cursor }, phase⟩ = phase.close { lexer with cursor } := by
  obtain ⟨cursor, skipped, laterStands, walk, closes⟩ :=
    exists_walk_run phase notBetween stands
  have oneLine : lineFeed ∉ left.takeWhile phase.inRun :=
    not_mem_of_forall stops fun c member => List.mem_takeWhile_imp member
  rw [moveOver_of_not_mem oneLine] at laterStands walk closes
  exact ⟨cursor, skipped, laterStands, walk, closes⟩

end Runs

/-! ## Segments -/

section Segments

variable {lexer after : Lexer} {source : String} {read before taken left rest : List Char}
  {line : UInt32} {first : Char} {cursor : Cursor}

/-- A lexer that has read the segment at its first character stands after it, on the
line counted over the characters that come after the first. -/
theorem Reads.stands (notLineFeed : first ≠ lineFeed)
    (stands : lexer.Stands source read line before [first] rest)
    (reads : lexer.Reads before (Segment.cut first rest) after) :
    after.Stands source read line before (Segment.cut first rest).1.text
      (Segment.cut first rest).2 := by
  obtain ⟨passed, whole, lineEq⟩ := stands.counted
  obtain ⟨more, textEq⟩ := Segment.exists_text_cut first rest
  have sameLine : lineAfter lexer.line (first :: more) = lineAfter lexer.line more := by
    rw [← List.singleton_append, ← lineAfter_lineAfter, lineAfter_singleton,
      if_neg notLineFeed]
  have sameSource : after.cursor.source = lexer.cursor.source := by
    rw [← String.toList_inj, reads.splits.source_eq, stands.splits.source_eq,
      Segment.text_cut_append]
    rfl
  refine ⟨sameSource.trans stands.source_eq, reads.splits, passed ++ more, ?_, ?_⟩
  · rw [textEq, ← List.append_assoc, ← whole, List.append_assoc]
    rfl
  · rw [reads.scans.line_eq, List.flatMap_singleton, textEq, sameLine, lineEq,
      lineAfter_lineAfter]

theorem bind_ok {α β : Type} (value : α) (continuation : α → Except Fault β) :
    (Except.ok value >>= continuation) = continuation value :=
  rfl

theorem between_of_eq_ok {action : Except Fault Lexer} (succeeds : action = .ok after) :
    (do let closed ← action; return ⟨closed, .between⟩) =
      (.ok ⟨after, .between⟩ : Except Fault Stage) := by
  rw [succeeds]
  rfl

/-! ### Words and numbers -/

theorem walk_word (stands : lexer.Stands source read line before taken left)
    (scanned : lexer.scanWord = .ok after)
    (there : Stage.StandsAfter source read line ⟨after, .between⟩) :
    Stage.Walk (Stage.StandsAfter source read line) ⟨lexer, .word⟩
      ⟨after, .between⟩ := by
  obtain ⟨cursor, skipped, _, walk, closes⟩ :=
    exists_walk_run_of_stops .word (by simp) rfl stands
  have skippedWord : lexer.cursor.skipWhile isWordChar = .ok cursor := skipped
  rw [scanWord, skippedWord, bind_ok] at scanned
  exact walk.snoc rfl (closes.trans (between_of_eq_ok scanned)) there

theorem closeWhole_of_point {digit : Char} {more : List Char}
    (splits : lexer.cursor.Splits before taken ('.' :: digit :: more))
    (isDigit : digit.isDigit = true) :
    lexer.closeWhole =
      .ok ⟨{ lexer with cursor := lexer.cursor.moveBy '.' }, .fraction⟩ := by
  have point : lexer.cursor.peek = .ok '.' := splits.peek_eq
  have second : lexer.cursor.peekNext = .ok digit := splits.peekNext_eq
  have notLineFeed : '.' ≠ lineFeed := by decide
  rw [closeWhole, point, second]
  simp only [bind, Except.bind, isDigit, and_self, if_true, take_eq splits,
    moveOver_of_not_mem (not_mem_singleton notLineFeed)]
  rfl

theorem closeWhole_of_no_point (splits : lexer.cursor.Splits before taken left)
    (noPoint : ∀ digit more, left = '.' :: digit :: more → digit.isDigit = false) :
    lexer.closeWhole = lexer.closeNumber := by
  rw [closeWhole, splits.peek_eq, splits.peekNext_eq]
  simp only [bind, Except.bind, if_neg (not_point_of_no_point noPoint)]

theorem walk_number (stands : lexer.Stands source read line before taken left)
    (scanned : lexer.scanNumber = .ok after)
    (there : Stage.StandsAfter source read line ⟨after, .between⟩) :
    Stage.Walk (Stage.StandsAfter source read line) ⟨lexer, .whole⟩
      ⟨after, .between⟩ := by
  obtain ⟨whole, skipped, wholeStands, walk, closes⟩ :=
    exists_walk_run_of_stops .whole (by simp) rfl stands
  have skippedWhole : lexer.cursor.skipWhile Char.isDigit = .ok whole := skipped
  rw [scanNumber, skippedWhole, bind_ok] at scanned
  by_cases point : ∃ digit more, left.dropWhile (Phase.inRun .whole) =
      '.' :: digit :: more ∧ digit.isDigit = true
  · obtain ⟨digit, more, leftEq, isDigit⟩ := point
    rw [leftEq] at wholeStands
    have pointStands := wholeStands.take_of_ne (by decide)
    have toPoint := closes.trans (closeWhole_of_point wholeStands.splits isDigit)
    obtain ⟨last, skippedFraction, _, fractionWalk, fractionCloses⟩ :=
      exists_walk_run_of_stops .fraction (by simp) rfl pointStands
    have skippedDigits : (whole.moveBy '.').skipWhile Char.isDigit = .ok last :=
      skippedFraction
    rw [skipFraction_of_point wholeStands.splits isDigit, skippedDigits, bind_ok]
      at scanned
    have toFraction := walk.snoc rfl toPoint (pointStands.standsAfter .fraction)
    exact (toFraction.trans fractionWalk).snoc rfl
      (fractionCloses.trans (between_of_eq_ok scanned)) there
  · have noPoint : ∀ digit more,
        left.dropWhile (Phase.inRun .whole) = '.' :: digit :: more →
          digit.isDigit = false := by
      intro digit more leftEq
      rw [← Bool.not_eq_true]
      exact fun isDigit => point ⟨digit, more, leftEq, isDigit⟩
    rw [skipFraction_of_no_point wholeStands.splits noPoint, bind_ok] at scanned
    have closed := closes.trans (closeWhole_of_no_point wholeStands.splits noPoint)
    exact walk.snoc rfl (closed.trans (between_of_eq_ok scanned)) there

/-! ### Strings -/

section Closing

variable {contents others : List Char}

theorem closeString_of_ended
    (splits : lexer.cursor.Splits before (quote :: contents) []) (opening : UInt32) :
    lexer.closeString opening =
      .ok ⟨lexer.report (.unterminatedString (String.ofList contents)) opening,
        .between⟩ := by
  have ended : lexer.cursor.atEnd = true := splits.atEnd_eq
  rw [closeString, if_pos ended, slice_contents splits]
  rfl

theorem closeString_of_quote {opening : UInt32}
    (splits : lexer.cursor.Splits before (quote :: contents) (quote :: others))
    (pushed : (lexer.pushLexeme (lexer.cursor.moveBy quote) fun text =>
      ⟨.string, text, some (.string (String.ofList contents)), opening⟩) = .ok after) :
    lexer.closeString opening = .ok ⟨after, .between⟩ := by
  have going : ¬ lexer.cursor.atEnd = true := by simp [splits.atEnd_eq]
  rw [closeString, if_neg going, splits.next_eq, bind_ok]
  dsimp only
  rw [slice_contents_of_closed splits, bind_ok]
  exact between_of_eq_ok pushed

end Closing

theorem walk_string (stands : lexer.Stands source read line before [quote] left)
    (scanned : lexer.scanString = .ok after)
    (there : Stage.StandsAfter source read line ⟨after, .between⟩) :
    Stage.Walk (Stage.StandsAfter source read line) ⟨lexer, .string lexer.line⟩
      ⟨after, .between⟩ := by
  obtain ⟨body, skipped, bodyStands, walk, closes⟩ :=
    exists_walk_run (.string lexer.line) (by simp) stands
  have skippedBody : lexer.cursor.skipWhile (· ≠ quote) = .ok body := skipped
  have bodySplits : body.Splits before (quote :: left.takeWhile (· ≠ quote))
    (left.dropWhile (· ≠ quote)) := bodyStands.splits
  rw [scanString, skippedBody, bind_ok] at scanned
  cases leftEq : left.dropWhile (· ≠ quote) with
  | nil =>
      rw [leftEq] at bodySplits
      have ended : body.atEnd = true := bodySplits.atEnd_eq
      rw [if_pos ended, slice_contents bodySplits, bind_ok, String.toList_ofList] at scanned
      cases scanned
      exact walk.snoc rfl (closes.trans (closeString_of_ended bodySplits lexer.line)) there
  | cons closing others =>
      have isQuote : closing = quote :=
        eq_of_head?_dropWhile_ne (congrArg List.head? leftEq)
      rw [leftEq, isQuote] at bodySplits
      have going : ¬ body.atEnd = true := by simp [bodySplits.atEnd_eq]
      rw [if_neg going, bodySplits.next_eq, bind_ok] at scanned
      dsimp only at scanned
      rw [slice_contents_of_closed bodySplits, bind_ok, String.toList_ofList] at scanned
      exact walk.snoc rfl (closes.trans (closeString_of_quote bodySplits scanned)) there

/-! ### Symbols and comments -/

theorem exists_walk_openRemark (stands : lexer.Stands source read line before ['/'] rest)
    (scanned : lexer.scanSlash = .ok after)
    (there : Stage.StandsAfter source read line ⟨after, .between⟩) :
    ∃ next, lexer.openRemark = .ok next ∧
      Stage.Walk (Stage.StandsAfter source read line) next ⟨after, .between⟩ := by
  have tried := stands.splits.matchChar_eq '/'
  rw [scanSlash, tried, bind_ok] at scanned
  rw [openRemark, tried, bind_ok]
  by_cases double : rest.head? = some '/'
  · obtain ⟨others, rfl⟩ := List.head?_eq_some_iff.1 double
    obtain ⟨remark, skipped, _, walk, closes⟩ :=
      exists_walk_run_of_stops .remark (by simp) rfl (stands.take_of_ne (by decide))
    have skippedRemark :
        (lexer.cursor.moveBy '/').skipWhile (· ≠ lineFeed) = .ok remark := skipped
    rw [if_pos double] at scanned ⊢
    dsimp only at scanned
    rw [if_pos rfl, skippedRemark, bind_ok] at scanned
    cases scanned
    exact ⟨_, rfl, walk.snoc rfl closes there⟩
  · rw [if_neg double] at scanned ⊢
    exact ⟨⟨after, .between⟩, between_of_eq_ok scanned, .refl there⟩

/-! ### One segment -/

/-- What a segment's first character opens is chosen by the class of the character
alone. -/
theorem openAfter_eq (lexer : Lexer) (first : Char) :
    lexer.openAfter first =
      match Lead.of first with
      | .blank => .ok ⟨lexer, .between⟩
      | .quotation => .ok ⟨lexer, .string lexer.line⟩
      | .digit => .ok ⟨lexer, .whole⟩
      | .letter => .ok ⟨lexer, .word⟩
      | .mark .slash => lexer.openRemark
      | .mark symbol => lexer.openMark symbol
      | .nothing =>
          .ok ⟨lexer.report (.unexpectedCharacter first) lexer.line, .between⟩ := by
  unfold openAfter Lead.of
  grind

theorem exists_walk_openAfter (notLineFeed : first ≠ lineFeed)
    (stands : lexer.Stands source read line before [first] rest)
    (scanned : lexer.scanAfter first = .ok after)
    (there : Stage.StandsAfter source read line ⟨after, .between⟩) :
    ∃ next, lexer.openAfter first = .ok next ∧
      Stage.Walk (Stage.StandsAfter source read line) next ⟨after, .between⟩ := by
  rw [scanAfter_eq] at scanned
  rw [openAfter_eq]
  cases lead : Lead.of first with
  | blank =>
      rw [lead, lineAfter_of_not_mem (not_mem_singleton notLineFeed)] at scanned
      cases scanned
      exact ⟨_, rfl, .refl there⟩
  | quotation =>
      rw [lead] at scanned
      rw [Lead.of_eq_quotation_iff.1 lead] at stands
      exact ⟨_, rfl, walk_string stands scanned there⟩
  | digit =>
      rw [lead] at scanned
      exact ⟨_, rfl, walk_number stands scanned there⟩
  | letter =>
      rw [lead] at scanned
      exact ⟨_, rfl, walk_word stands scanned there⟩
  | mark symbol =>
      rw [lead] at scanned
      by_cases isSlash : symbol = .slash
      · subst isSlash
        cases Symbol.spelling_of_ofChar? (Lead.of_eq_mark_iff.1 lead)
        exact exists_walk_openRemark stands scanned there
      · cases symbol
        case slash => exact absurd rfl isSlash
        all_goals exact ⟨_, between_of_eq_ok scanned, .refl there⟩
  | nothing =>
      rw [lead] at scanned
      cases scanned
      exact ⟨_, rfl, .refl there⟩

/-- Scanning a segment and taking it character by character come to the same lexer. -/
theorem exists_walk_segment
    (stands : lexer.Stands source read line before taken (first :: rest)) :
    ∃ after, lexer.scanSegment = .ok after ∧
      after.Stands source read line (before ++ taken) (Segment.cut first rest).1.text
        (Segment.cut first rest).2 ∧
      Stage.Walk (Stage.StandsAfter source read line) ⟨lexer, .between⟩
        ⟨after, .between⟩ := by
  let moved : Lexer := { lexer with cursor := lexer.cursor.mark.moveBy first }
  have movedSplits : moved.cursor.Splits (before ++ taken) [first] rest :=
    stands.splits.mark.moveBy
  obtain ⟨after, movedScan, reads⟩ := exists_scanAfter movedSplits
  have scanned : lexer.scanSegment = .ok after := by
    rw [scanSegment, stands.splits.mark.next_eq]
    exact movedScan
  have opened : lexer.openSegment =
      (moved.moveOver moved.cursor [first]).openAfter first := by
    rw [openSegment, take_eq stands.mark.splits]
    rfl
  have going : Stage.finished ⟨lexer, .between⟩ = false := stands.splits.atEnd_eq
  -- Only a line feed moves the line when it is taken first, and it is all of its segment.
  by_cases isLineFeed : first = lineFeed
  · subst isLineFeed
    cases movedScan
    have takenStands := stands.mark.take
    exact ⟨_, scanned, takenStands, .step (stands.standsAfter .between) going opened
      (.refl (takenStands.standsAfter .between))⟩
  · have movedStands : moved.Stands source read line (before ++ taken) [first] rest :=
      stands.mark.take_of_ne isLineFeed
    rw [moveOver_of_not_mem (not_mem_singleton isLineFeed)] at opened
    have afterStands := reads.stands isLineFeed movedStands
    have there := afterStands.standsAfter .between
    obtain ⟨next, openedNext, walk⟩ :=
      exists_walk_openAfter isLineFeed movedStands movedScan there
    exact ⟨after, scanned, afterStands,
      .step (stands.standsAfter .between) going (opened.trans openedNext) walk⟩

end Segments

/-! ## The whole text -/

/-- Scanning all that is left and taking it character by character come to the same
lexer. -/
theorem exists_walk_all {lexer : Lexer} {source : String}
    {read before taken left : List Char} {line : UInt32}
    (stands : lexer.Stands source read line before taken left) :
    ∃ last, lexer.scanAll = .ok last ∧ last.cursor.atEnd = true ∧
      Stage.Walk (Stage.StandsAfter source read line) ⟨lexer, .between⟩
        ⟨last, .between⟩ := by
  induction left using segments_induction generalizing lexer before taken with
  | empty =>
      have ended : lexer.cursor.atEnd = true := stands.splits.atEnd_eq
      refine ⟨lexer, ?_, ended, .refl (stands.standsAfter .between)⟩
      rw [scanAll, if_pos ended]
  | step first rest ih =>
      obtain ⟨after, scanned, afterStands, walk⟩ := exists_walk_segment stands
      obtain ⟨last, scannedAll, ended, lastWalk⟩ := ih afterStands
      refine ⟨last, ?_, ended, walk.trans lastWalk⟩
      rw [scanAll_of_scanSegment stands.splits scanned, scannedAll]

end Lexer

end LoxScanner
