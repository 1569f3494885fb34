import LoxScanner.Lexer.Call
import LoxScanner.Proofs.Cursor

/-!
# A lexer driven by hand, as two lists of characters

A reader keeps the characters that it has taken and those that are left. A lexer that
takes no character where none is left gives the answers of a reader of its text, and its
two byte offsets are those of the cut between the reader's lists.
-/

namespace LoxScanner

/-- The characters of a text that have been taken and those that are left. -/
structure Reader where
  taken : List Char
  left : List Char

namespace Reader

open Lexer (Call Answer)

def ofSource (source : String) : Reader :=
  ⟨[], source.toList⟩

/-- Takes the first character that is left. -/
def take (reader : Reader) : Reader :=
  match reader.left with
  | [] => reader
  | c :: others => ⟨reader.taken ++ [c], others⟩

/-- Where no character is left, `noCharacter` is read. -/
def answer (reader : Reader) : Call → Answer
  | .atEnd => .truth reader.left.isEmpty
  | .advance => .character (reader.left.head?.getD noCharacter)
  | .peek => .character (reader.left.head?.getD noCharacter)
  | .peekNext => .character (reader.left[1]?.getD noCharacter)
  | .matchChar expected => .truth (reader.left.head? = some expected)
  | .lexeme => .text (String.ofList reader.taken)
  | .remainder => .text (String.ofList reader.left)
  | .push _ => .done

/-- The reader after a call. Only two calls take a character. -/
def next (reader : Reader) : Call → Reader
  | .advance => reader.take
  | .matchChar expected =>
      if reader.left.head? = some expected then reader.take else reader
  | _ => reader

def answers (reader : Reader) : List Call → List Answer
  | [] => []
  | call :: calls => reader.answer call :: (reader.next call).answers calls

/-- The reader after a sequence of calls. -/
def after (reader : Reader) (calls : List Call) : Reader :=
  calls.foldl next reader

theorem take_taken_append_left (reader : Reader) :
    reader.take.taken ++ reader.take.left = reader.taken ++ reader.left := by
  obtain ⟨taken, left⟩ := reader
  cases left with
  | nil => rfl
  | cons c others => exact List.append_assoc taken [c] others

/-- A call loses no character of the text. -/
theorem next_taken_append_left (reader : Reader) (call : Call) :
    (reader.next call).taken ++ (reader.next call).left = reader.taken ++ reader.left := by
  cases call with
  | advance => exact reader.take_taken_append_left
  | matchChar expected =>
      unfold next
      dsimp only
      split
      · exact reader.take_taken_append_left
      · rfl
  | _ => rfl

theorem after_taken_append_left (reader : Reader) (calls : List Call) :
    (reader.after calls).taken ++ (reader.after calls).left =
      reader.taken ++ reader.left := by
  induction calls generalizing reader with
  | nil => rfl
  | cons call calls ih => exact (ih (reader.next call)).trans (reader.next_taken_append_left call)

end Reader

namespace Lexer

/-! ## Calls one by one -/

/-- Whether a call takes a character only where one is left. -/
def Call.Careful (call : Call) (lexer : Lexer) : Prop :=
  call = .advance → lexer.cursor.atEnd = false

/-- Whether each call of a sequence takes a character only where one is left. -/
def CarefulCalls (lexer : Lexer) : List Call → Prop
  | [] => True
  | call :: calls => call.Careful lexer ∧ (lexer.perform call).2.CarefulCalls calls

/-- `lexer.Follows source reader` says that the lexer's cursor cuts `source` where the
reader does, with the lexeme starting where the text does, and that the lexer is on its
first line. -/
structure Follows (lexer : Lexer) (source : String) (reader : Reader) : Prop where
  source_eq : lexer.cursor.source = source
  splits : lexer.cursor.Splits [] reader.taken reader.left
  line_eq : lexer.line = 1

theorem follows_ofSource (source : String) (file : Option String) :
    (ofSource source file).Follows source (.ofSource source) :=
  ⟨rfl, Cursor.splits_ofSource source, rfl⟩

section Simulation

variable {lexer : Lexer} {source : String} {reader : Reader}

theorem Follows.take {c : Char} (follows : lexer.Follows source reader)
    (found : reader.left.head? = some c) :
    { lexer with cursor := lexer.cursor.moveBy c }.Follows source reader.take := by
  obtain ⟨taken, left⟩ := reader
  obtain ⟨others, rfl⟩ := List.head?_eq_some_iff.1 found
  exact ⟨follows.source_eq, follows.splits.moveBy, follows.line_eq⟩

/-- A careful call is answered as the reader answers it, and the lexer goes where the
reader goes. -/
theorem Follows.exists_perform {call : Call} (follows : lexer.Follows source reader)
    (careful : call.Careful lexer) :
    ∃ next, lexer.perform call = (.ok (reader.answer call), next) ∧
      next.Follows source (reader.next call) := by
  have splits := follows.splits
  cases call with
  | atEnd =>
      refine ⟨lexer, ?_, follows⟩
      rw [perform, Call.action, on_onCursor_reading, splits.atEnd_eq]
      rfl
  | advance =>
      have going : lexer.cursor.atEnd = false := careful rfl
      cases leftEq : reader.left with
      | nil =>
          rw [splits.atEnd_eq, leftEq] at going
          cases going
      | cons c others =>
          have found : reader.left.head? = some c := by rw [leftEq]; rfl
          refine ⟨_, ?_, follows.take found⟩
          rw [perform, Call.action, on_onCursor, splits.on_advance, Reader.answer, found]
          rfl
  | peek =>
      refine ⟨lexer, ?_, follows⟩
      rw [perform, Call.action, on_onCursor_reading, splits.peek_eq]
      rfl
  | peekNext =>
      refine ⟨lexer, ?_, follows⟩
      rw [perform, Call.action, on_onCursor_reading, splits.peekNext_eq]
      rfl
  | matchChar expected =>
      rw [perform, Call.action, on_onCursor, splits.on_matchChar, Reader.answer, Reader.next]
      by_cases found : reader.left.head? = some expected
      · rw [if_pos found, if_pos found, decide_eq_true found]
        exact ⟨_, rfl, follows.take found⟩
      · rw [if_neg found, if_neg found, decide_eq_false found]
        exact ⟨_, rfl, follows⟩
  | lexeme =>
      refine ⟨lexer, ?_, follows⟩
      rw [perform, Call.action, on_onCursor_reading, splits.lexeme_eq]
      rfl
  | remainder =>
      refine ⟨lexer, ?_, follows⟩
      rw [perform, Call.action, on_onCursor_reading, splits.remainder_eq]
      rfl
  | push token => exact ⟨lexer.push token, rfl, follows.source_eq, splits, follows.line_eq⟩

/-! ## Sequences of calls -/

/-- Careful calls in a row are answered as the reader answers them. -/
theorem Follows.performAll {calls : List Call} (follows : lexer.Follows source reader)
    (careful : lexer.CarefulCalls calls) :
    (lexer.performAll calls).1 = (reader.answers calls).map .ok ∧
      (lexer.performAll calls).2.Follows source (reader.after calls) := by
  induction calls generalizing lexer reader with
  | nil => exact ⟨rfl, follows⟩
  | cons call calls ih =>
      obtain ⟨callCareful, othersCareful⟩ := careful
      obtain ⟨next, performed, nextFollows⟩ := follows.exists_perform callCareful
      rw [performed] at othersCareful
      obtain ⟨answersEq, lastFollows⟩ := ih nextFollows othersCareful
      rw [Lexer.performAll, performed]
      refine ⟨?_, lastFollows⟩
      rw [Reader.answers, List.map_cons, ← answersEq]

theorem CarefulCalls.of_append {earlier later : List Call}
    (careful : lexer.CarefulCalls (earlier ++ later)) : lexer.CarefulCalls earlier := by
  induction earlier generalizing lexer with
  | nil => trivial
  | cons call calls ih =>
      obtain ⟨callCareful, othersCareful⟩ := careful
      exact ⟨callCareful, ih othersCareful⟩

theorem Follows.cursor_eq (follows : lexer.Follows source reader) :
    lexer.cursor = ⟨source, 0, byteCount reader.taken⟩ := by
  have startEq : lexer.cursor.start = 0 := follows.splits.start_eq.trans byteCount_nil
  have currentEq : lexer.cursor.current = byteCount reader.taken := follows.splits.current_eq
  rw [← follows.source_eq, ← startEq, ← currentEq]

end Simulation

/-- A lexer that takes no character where none is left answers every call as a reader of
its text does. At each moment the reader's two lists make up the text, and the lexer's
cursor stands between them. -/
theorem performAll_eq_answers (source : String) (file : Option String) (calls : List Call)
    (careful : (ofSource source file).CarefulCalls calls) :
    ((ofSource source file).performAll calls).1 =
        ((Reader.ofSource source).answers calls).map .ok ∧
      ∀ earlier later, calls = earlier ++ later →
        ((Reader.ofSource source).after earlier).taken ++
            ((Reader.ofSource source).after earlier).left = source.toList ∧
          ((ofSource source file).performAll earlier).2.cursor =
            ⟨source, 0, byteCount ((Reader.ofSource source).after earlier).taken⟩ := by
  have follows := follows_ofSource source file
  refine ⟨(follows.performAll careful).1, ?_⟩
  intro earlier later callsEq
  rw [callsEq] at careful
  obtain ⟨-, earlierFollows⟩ := follows.performAll careful.of_append
  exact ⟨Reader.after_taken_append_left _ earlier, earlierFollows.cursor_eq⟩

/-- A character of two bytes, and one that is also what is read where none is left. -/
theorem answers_around_noCharacter :
    let calls : List Call :=
      [.matchChar 'e', .advance, .peek, .peekNext, .push (.endOfText 3), .matchChar '\x00',
        .matchChar '\x00', .peek, .atEnd, .lexeme, .remainder]
    (ofSource "é\x00" none).CarefulCalls calls ∧
    ((ofSource "é\x00" none).performAll calls).1 =
      [.ok (.truth false), .ok (.character 'é'), .ok (.character '\x00'),
        .ok (.character '\x00'), .ok .done, .ok (.truth true), .ok (.truth false),
        .ok (.character '\x00'), .ok (.truth true), .ok (.text "é\x00"), .ok (.text "")] := by
  intro calls
  have careful : (ofSource "é\x00" none).CarefulCalls calls :=
    ⟨nofun, fun _ => rfl, nofun, nofun, nofun, nofun, nofun, nofun, nofun, nofun, nofun,
      trivial⟩
  refine ⟨careful, ?_⟩
  rw [(performAll_eq_answers "é\x00" none calls careful).1]
  rfl

end Lexer

end LoxScanner
