import LoxScanner.Proofs.Safety

/-!
# Scans of what is left of a text

A lexer that is driven by hand, and takes no character where none is left, then scans
what is left of its text as a text of its own. Each call keeps the tokens pushed so far
and adds at most one, so a scan gives the pushed tokens in order and after them the
tokens of what is left.
-/

namespace LoxScanner

namespace Lexer

/-! ## Sequences of calls -/

def Call.pushed? : Call → Option Token
  | push token => some token
  | _ => none

/-- `lexer.Gains gained after` means that `after` has the tokens of `lexer` and after them
the gained ones, and else has found nothing more. -/
structure Gains (lexer : Lexer) (gained : List Token) (after : Lexer) : Prop where
  tokens_eq : after.tokens.toList = lexer.tokens.toList ++ gained
  diagnostics_eq : after.diagnostics = lexer.diagnostics
  label_eq : after.label = lexer.label

variable {lexer after : Lexer}

theorem Gains.nil (lexer : Lexer) (cursor : Cursor) : lexer.Gains [] { lexer with cursor } :=
  ⟨(List.append_nil _).symm, rfl, rfl⟩

theorem Gains.append {last : Lexer} {first second : List Token}
    (one : lexer.Gains first after) (other : after.Gains second last) :
    lexer.Gains (first ++ second) last where
  tokens_eq := by rw [other.tokens_eq, one.tokens_eq, List.append_assoc]
  diagnostics_eq := other.diagnostics_eq.trans one.diagnostics_eq
  label_eq := other.label_eq.trans one.label_eq

theorem gains_onCursor {α : Type} (lexer : Lexer) (action : Action Cursor α)
    (answer : α → Answer) : lexer.Gains [] ((onCursor action answer).on lexer).2 := by
  rw [on_onCursor]
  exact .nil lexer (action.on lexer.cursor).2

/-- A call, also one that faults, adds the token that it pushes, and nothing else. -/
theorem gains_perform (lexer : Lexer) (call : Call) :
    lexer.Gains call.pushed?.toList (lexer.perform call).2 := by
  cases call with
  | push token => exact ⟨Array.toList_push, rfl, rfl⟩
  | atEnd | advance | peek | peekNext | matchChar | lexeme | remainder =>
      rw [perform, Call.action]
      exact gains_onCursor lexer _ _

theorem gains_performAll (lexer : Lexer) (calls : List Call) :
    lexer.Gains (calls.filterMap Call.pushed?) (lexer.performAll calls).2 := by
  induction calls generalizing lexer with
  | nil => exact .nil lexer lexer.cursor
  | cons call calls ih =>
      have pushed : (call :: calls).filterMap Call.pushed? =
          call.pushed?.toList ++ calls.filterMap Call.pushed? := by
        cases call <;> rfl
      rw [pushed]
      exact (gains_perform lexer call).append (ih (lexer.perform call).2)

theorem CarefulCalls.atFirstLexeme {source : String} {calls : List Call}
    (careful : lexer.CarefulCalls calls) (stands : lexer.AtFirstLexeme source) :
    (lexer.performAll calls).2.AtFirstLexeme source := by
  obtain ⟨reader, follows⟩ := atFirstLexeme_iff.1 stands
  exact atFirstLexeme_iff.2 ⟨reader.after calls, (follows.performAll careful).2⟩

/-! ## Scanning on -/

/-- After careful calls a scan gives the pushed tokens in their order and after them the
tokens of what is left, and the diagnostics of what is left. -/
theorem scanTokens_performAll (source : String) (file : Option String) (calls : List Call)
    (careful : (ofSource source file).CarefulCalls calls) :
    let lexer := ((ofSource source file).performAll calls).2
    ∃ taken rest : String, source = taken ++ rest ∧
      lexer.perform .remainder = (.ok (.text rest), lexer) ∧
      lexer.scanTokens =
        .ok ⟨calls.filterMap Call.pushed? ++ (tokenize rest file).tokens,
          (tokenize rest file).diagnostics⟩ := by
  intro lexer
  have initial := atFirstLexeme_ofSource source file
  obtain ⟨taken, left, sourceEq, splits, lineEq⟩ := careful.atFirstLexeme initial
  have gains : (ofSource source file).Gains (calls.filterMap Call.pushed?) lexer :=
    gains_performAll (ofSource source file) calls
  refine ⟨String.ofList taken, String.ofList left, ?_, ?_, ?_⟩
  · rw [← String.ofList_append, ← String.ofList_toList (s := source), ← sourceEq,
      splits.whole, List.nil_append]
  · rw [perform, Call.action, on_onCursor_reading, splits.remainder_eq]
    rfl
  · rw [scanTokens_of_splits file splits gains.label_eq lineEq, gains.tokens_eq,
      gains.diagnostics_eq]
    rfl

/-- The calls leave the cursor inside what would have been a string on the second line. -/
theorem scanTokens_inside_string :
    let source := "\n\"é\ny\" 1 @"
    let first : Token := ⟨.identifier, "one", none, 7⟩
    let second : Token := ⟨.endOfText, "", none, 0⟩
    let calls : List Call :=
      [.advance, .matchChar '"', .peek, .push first, .matchChar 'x', .advance, .push second,
        .advance]
    (ofSource source (some "x.lox")).CarefulCalls calls ∧
    ((ofSource source (some "x.lox")).performAll calls).2.scanTokens =
      .ok ⟨[first, second, ⟨.identifier, "y", none, 1⟩, .endOfText 1],
        [⟨.unterminatedString " 1 @", ⟨1, "x.lox"⟩⟩]⟩ := by
  intro source first second calls
  have careful : (ofSource source (some "x.lox")).CarefulCalls calls := by
    refine ⟨fun _ => ?_, nofun, nofun, nofun, nofun, fun _ => ?_, nofun, fun _ => ?_, trivial⟩
    all_goals decide +kernel
  obtain ⟨taken, rest, -, remainder, scanned⟩ :=
    scanTokens_performAll source (some "x.lox") calls careful
  have restEq : rest = "y\" 1 @" := by
    have computed : (((ofSource source (some "x.lox")).performAll calls).2.perform
        .remainder).1.toOption = some (.text "y\" 1 @") := by
      decide +kernel
    rw [remainder] at computed
    exact Answer.text.inj (Option.some.inj computed)
  have tokens : (tokenize "y\" 1 @" (some "x.lox")).tokens =
      [⟨.identifier, "y", none, 1⟩, .endOfText 1] := by
    decide +kernel
  have diagnostics : (tokenize "y\" 1 @" (some "x.lox")).diagnostics =
      [⟨.unterminatedString " 1 @", ⟨1, "x.lox"⟩⟩] := by
    decide +kernel
  refine ⟨careful, ?_⟩
  rw [scanned, restEq, tokens, diagnostics]
  rfl

end Lexer

end LoxScanner
