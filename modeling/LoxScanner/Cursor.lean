/-!
A cursor over a text, kept as two byte offsets: where the lexeme under way starts,
and how far it reaches.

Reading through an offset that is not at the boundary of a character is a fault.
A cursor that moves by whole characters meets none; the one way out is to take a
character where none is left, which moves the cursor one byte past the text.

What moves a cursor is an action on it. A fault ends the action, and what has been done
to the cursor before the fault stays done.
-/

namespace LoxScanner

/-- Why reading a text fails. -/
inductive Fault
  /-- An offset inside a character or past the text. -/
  | notAtBoundary
  /-- A slice that ends before it starts. -/
  | reversedSlice
  /-- A character that is needed where none is left. -/
  | endOfText
  deriving DecidableEq

/-! ## Actions -/

/-- An action on a state. A fault ends it, and the state stays as the action has left it
by then. -/
abbrev Action (σ α : Type) :=
  ExceptT Fault (StateM σ) α

namespace Action

variable {σ α β : Type}

/-- The answer of an action or its fault, and the state after it. -/
def on (action : Action σ α) (state : σ) : Except Fault α × σ :=
  (action.run.run state).run

/-- An action within a scan. A fault ends the scan, and the state is lost with it. -/
def outcome (action : Action σ α) (state : σ) : Except Fault (α × σ) :=
  match action.on state with
  | (.ok answer, after) => .ok (answer, after)
  | (.error fault, _) => .error fault

/-- An action that just reads its state. -/
def reading (read : σ → Except Fault α) : Action σ α := do
  MonadExcept.ofExcept (read (← get))

/-- An action goes on where its first part has answered, and ends where that faults. -/
theorem on_bind (action : Action σ α) (continuation : α → Action σ β) (state : σ) :
    on (action >>= continuation) state =
      match action.on state with
      | (.ok answer, after) => (continuation answer).on after
      | (.error fault, after) => (.error fault, after) := by
  simp only [on, ExceptT.run_bind, StateT.run_bind, Id.run_bind]
  obtain ⟨answer, after⟩ := (action.run.run state).run
  cases answer with
  | ok answer => rfl
  | error fault => rfl

example : Action.on (do set 1; throw .endOfText : Action Nat Char) 0 = (.error .endOfText, 1) :=
  rfl

theorem on_get (state : σ) : (get : Action σ σ).on state = (.ok state, state) :=
  rfl

theorem on_reading (read : σ → Except Fault α) (state : σ) :
    (reading read).on state = (read state, state) := by
  rw [reading, on_bind, on_get]
  dsimp only
  cases read state with
  | ok answer => rfl
  | error fault => rfl

end Action

/-! ## Cursors -/

/-- The start and the reach of a lexeme, as byte offsets into a text. -/
structure Cursor where
  source : String
  start : Nat
  current : Nat

/-- What stands for a character where none is left. -/
def noCharacter : Char := '\x00'

/-- The position at a byte offset of a text. -/
def boundary (source : String) (offset : Nat) : Except Fault source.Pos :=
  if valid : String.Pos.Raw.IsValid source ⟨offset⟩ then
    .ok (source.pos ⟨offset⟩ valid)
  else .error .notAtBoundary

/-- The part of a text between two byte offsets. -/
def slice (source : String) (lower upper : Nat) : Except Fault String := do
  let first ← boundary source lower
  let last ← boundary source upper
  if ordered : first ≤ last then return (source.slice first last ordered).copy
  else throw .reversedSlice

namespace Cursor

/-- The cursor at the start of a text. -/
def ofSource (source : String) : Cursor :=
  ⟨source, 0, 0⟩

def atEnd (cursor : Cursor) : Bool :=
  cursor.source.utf8ByteSize ≤ cursor.current

/-- The bytes after the cursor. -/
def left (cursor : Cursor) : Nat :=
  cursor.source.utf8ByteSize - cursor.current

/-- The text between the start of the lexeme and the cursor. -/
def lexeme (cursor : Cursor) : Except Fault String :=
  slice cursor.source cursor.start cursor.current

/-- The text after the cursor. -/
def remainder (cursor : Cursor) : Except Fault String :=
  slice cursor.source cursor.current cursor.source.utf8ByteSize

/-- The character after the cursor. -/
def peek (cursor : Cursor) : Except Fault Char := do
  let here ← boundary cursor.source cursor.current
  return here.get?.getD noCharacter

/-- The second character after the cursor. -/
def peekNext (cursor : Cursor) : Except Fault Char := do
  let here ← boundary cursor.source cursor.current
  return (here.next?.bind String.Pos.get?).getD noCharacter

def moveBy (cursor : Cursor) (c : Char) : Cursor :=
  { cursor with current := cursor.current + c.utf8Size }

/-- Starts a new lexeme at the cursor. -/
def mark (cursor : Cursor) : Cursor :=
  { cursor with start := cursor.current }

/-- Whether the character after the cursor is there and is the expected one. -/
def sees (expected : Char) (cursor : Cursor) : Except Fault Bool :=
  if cursor.atEnd then .ok false
  else do
    let c ← cursor.peek
    return c = expected

/-- Takes the character after the cursor, or moves past the text. -/
def advance : Action Cursor Char := do
  let c ← Action.reading peek
  modify fun cursor => cursor.moveBy c
  return c

/-- Takes the character after the cursor if it is the expected one. -/
def matchChar (expected : Char) : Action Cursor Bool := do
  let found ← Action.reading (sees expected)
  if found then modify fun cursor => cursor.moveBy expected
  return found

/-- Takes the character after the cursor, which has to be there. -/
def next (cursor : Cursor) : Except Fault (Char × Cursor) :=
  if cursor.atEnd then .error .endOfText else advance.outcome cursor

/-- Takes characters as long as they satisfy a condition. -/
def skipWhile (condition : Char → Bool) (cursor : Cursor) : Except Fault Cursor :=
  if _ended : cursor.atEnd then .ok cursor
  else do
    let c ← cursor.peek
    if condition c then skipWhile condition (cursor.moveBy c)
    else return cursor
termination_by cursor.left
decreasing_by
  have positive := c.utf8Size_pos
  have going : cursor.current < cursor.source.utf8ByteSize := by
    simpa [atEnd] using _ended
  simp only [left, moveBy]
  omega

/-! ## Moving forward -/

/-- A bind that succeeds, taken apart. -/
theorem exists_of_bind_eq_ok {α β : Type} {action : Except Fault α}
    {continuation : α → Except Fault β} {result : β}
    (succeeds : action >>= continuation = .ok result) :
    ∃ value, action = .ok value ∧ continuation value = .ok result := by
  cases action with
  | error fault => cases succeeds
  | ok value => exact ⟨value, rfl, succeeds⟩

/-- `earlier.Leads later` says that `later` is in the same text and not before
`earlier`. -/
structure Leads (earlier later : Cursor) : Prop where
  source_eq : later.source = earlier.source
  current_le : earlier.current ≤ later.current

theorem Leads.refl (cursor : Cursor) : cursor.Leads cursor :=
  ⟨rfl, Nat.le_refl _⟩

theorem Leads.trans {first second third : Cursor} (one : first.Leads second)
    (other : second.Leads third) : first.Leads third :=
  ⟨other.source_eq.trans one.source_eq,
    Nat.le_trans one.current_le other.current_le⟩

theorem leads_moveBy (cursor : Cursor) (c : Char) :
    cursor.Leads (cursor.moveBy c) :=
  ⟨rfl, Nat.le_add_right _ _⟩

theorem outcome_advance (cursor : Cursor) :
    advance.outcome cursor = (do
      let c ← cursor.peek
      return (c, cursor.moveBy c)) := by
  rw [Action.outcome, advance, Action.on_bind, Action.on_reading]
  cases cursor.peek with
  | ok c => rfl
  | error fault => rfl

theorem outcome_matchChar (cursor : Cursor) (expected : Char) :
    (matchChar expected).outcome cursor = (do
      let found ← cursor.sees expected
      return (found, if found then cursor.moveBy expected else cursor)) := by
  rw [Action.outcome, matchChar, Action.on_bind, Action.on_reading]
  cases cursor.sees expected with
  | ok found => cases found <;> rfl
  | error fault => rfl

theorem leads_of_next {cursor later : Cursor} {c : Char}
    (taken : cursor.next = .ok (c, later)) :
    cursor.Leads later ∧ cursor.current < later.current ∧
      cursor.current < cursor.source.utf8ByteSize := by
  unfold next at taken
  split at taken
  · cases taken
  next going =>
    rw [outcome_advance] at taken
    obtain ⟨found, _, moved⟩ := exists_of_bind_eq_ok taken
    cases moved
    have positive := c.utf8Size_pos
    refine ⟨leads_moveBy cursor c, ?_, ?_⟩
    · simp only [moveBy]
      omega
    · simpa [atEnd] using going

theorem leads_of_matchChar {cursor later : Cursor} {expected : Char} {found : Bool}
    (tried : (matchChar expected).outcome cursor = .ok (found, later)) :
    cursor.Leads later := by
  rw [outcome_matchChar] at tried
  obtain ⟨seen, _, moved⟩ := exists_of_bind_eq_ok tried
  cases moved
  cases found with
  | false => exact .refl cursor
  | true => exact leads_moveBy cursor expected

theorem leads_of_skipWhile {condition : Char → Bool} {cursor later : Cursor}
    (skipped : cursor.skipWhile condition = .ok later) : cursor.Leads later := by
  induction cursor using skipWhile.induct with
  | case1 cursor ended =>
      rw [skipWhile, dif_pos ended] at skipped
      cases skipped
      exact .refl later
  | case2 cursor ended ih =>
      rw [skipWhile, dif_neg ended] at skipped
      obtain ⟨c, _, outcome⟩ := exists_of_bind_eq_ok skipped
      split at outcome
      next => exact (leads_moveBy cursor c).trans (ih c outcome)
      next =>
        cases outcome
        exact .refl later

end Cursor

end LoxScanner
