import LoxScanner.Lexer.Basic

/-!
Driving a lexer by hand, character by character, before it scans the rest of its text.
A call may fault, and the lexer goes on from what the call has made of it.
-/

namespace LoxScanner

namespace Lexer

/-- A call on a lexer. -/
inductive Call
  | atEnd
  | advance
  | peek
  | peekNext
  | matchChar (expected : Char)
  | lexeme
  | remainder
  | push (token : Token)

/-- What a call gives back. -/
inductive Answer
  | done
  | truth (value : Bool)
  | character (value : Char)
  | text (value : String)
  deriving DecidableEq

/-- An action on a lexer's cursor, as a call that gives back what `answer` makes of the
result. The lexer keeps the cursor that the action leaves, also where it faults. -/
def onCursor {α : Type} (action : Action Cursor α) (answer : α → Answer) :
    Action Lexer Answer := do
  let lexer ← get
  let (result, cursor) := action.on lexer.cursor
  set { lexer with cursor }
  return answer (← MonadExcept.ofExcept result)

/-- What a call does. -/
def Call.action : Call → Action Lexer Answer
  | atEnd => onCursor (.reading fun cursor => .ok cursor.atEnd) .truth
  | advance => onCursor Cursor.advance .character
  | peek => onCursor (.reading Cursor.peek) .character
  | peekNext => onCursor (.reading Cursor.peekNext) .character
  | matchChar expected => onCursor (Cursor.matchChar expected) .truth
  | lexeme => onCursor (.reading Cursor.lexeme) .text
  | remainder => onCursor (.reading Cursor.remainder) .text
  | push token => do
      modify fun lexer => lexer.push token
      return .done

/-- A call's answer or its fault, and the lexer after it. -/
def perform (lexer : Lexer) (call : Call) : Except Fault Answer × Lexer :=
  call.action.on lexer

/-- The answers to a sequence of calls and the lexer after them. -/
def performAll (lexer : Lexer) : List Call → List (Except Fault Answer) × Lexer
  | [] => ([], lexer)
  | call :: calls =>
      let (answer, after) := lexer.perform call
      let (answers, last) := after.performAll calls
      (answer :: answers, last)

theorem on_onCursor {α : Type} (action : Action Cursor α) (answer : α → Answer)
    (lexer : Lexer) :
    (onCursor action answer).on lexer =
      ((action.on lexer.cursor).1.map answer,
        { lexer with cursor := (action.on lexer.cursor).2 }) := by
  rw [onCursor, Action.on_bind, Action.on_get]
  dsimp only
  cases action.on lexer.cursor with
  | mk result cursor =>
      cases result with
      | ok value => rfl
      | error fault => rfl

theorem on_onCursor_reading {α : Type} (read : Cursor → Except Fault α) (answer : α → Answer)
    (lexer : Lexer) :
    (onCursor (.reading read) answer).on lexer = ((read lexer.cursor).map answer, lexer) := by
  rw [on_onCursor, Action.on_reading]

end Lexer

end LoxScanner
