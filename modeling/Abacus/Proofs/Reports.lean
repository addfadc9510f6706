import Abacus.Proofs.Strictness

/-! # Reported errors

Each lexical error of a text leaves one malformed token behind, and each is reported once, in the
order of the text, however the run ends. No rule of the grammar takes a malformed token, so a
text with a lexical error is never run to its end. -/

namespace Abacus

/-! ## Malformed tokens -/

/-- The token that stands in the place of an error. -/
def LexicalError.lexeme (error : LexicalError) : Lexeme := ⟨.malformed, error.span⟩

def Lexeme.isMalformed (lexeme : Lexeme) : Bool := lexeme.token == .malformed

theorem Lexeme.isMalformed_of_spelled {lexeme : Lexeme} (spelled : (Item.read lexeme).Spelled) :
    lexeme.isMalformed = false := by
  rw [isMalformed, beq_eq_false_iff_ne]
  intro malformed
  rcases spelled with spelled | isEnd
  · rw [malformed] at spelled
    contradiction
  · rw [malformed] at isEnd
    contradiction

theorem filter_isMalformed_map_lexeme {items : List Item}
    (spelled : ∀ item ∈ items, item.Spelled) :
    (items.map Item.lexeme).filter Lexeme.isMalformed =
      (items.filterMap Item.error?).map LexicalError.lexeme := by
  induction items with
  | nil => rfl
  | cons item items induction =>
      have further := induction fun other member => spelled other (List.mem_cons_of_mem _ member)
      cases item with
      | read lexeme =>
          have proper := Lexeme.isMalformed_of_spelled (spelled _ List.mem_cons_self)
          rw [List.map_cons, List.filter_cons_of_neg (by simp [Item.lexeme, proper]), further]
          rfl
      | failed error =>
          rw [List.map_cons, List.filter_cons_of_pos rfl, further]
          rfl

namespace TokenStream

variable (mode : Mode) (text : String)

/-- The malformed tokens of a text are those that its errors leave. -/
theorem filter_isMalformed_lexemes :
    (ofText mode text).lexemes.filter Lexeme.isMalformed =
      (ofText mode text).errors.map LexicalError.lexeme := by
  rw [lexemes_ofText]
  exact filter_isMalformed_map_lexeme fun item member => spelled_of_mem_lex member

theorem pairwise_start_errors :
    (ofText mode text).errors.Pairwise fun first second =>
      first.span.start < second.span.start := by
  apply List.Pairwise.filterMap Item.error? _ (pairwise_before_lex mode text)
  intro first second before error isFirst other isSecond
  cases first with
  | read lexeme => contradiction
  | failed earlier =>
      cases second with
      | read lexeme => contradiction
      | failed later =>
          cases isFirst
          cases isSecond
          exact Nat.lt_of_lt_of_le before.1 before.2

end TokenStream

/-! ## Runs -/

/-- Whatever runs to its end has no error to report. -/
theorem errors_eq_nil_of_run {mode : Mode} {text : String} {store after : Store}
    (ran : (Run.ofText mode text store).result = .ok after) :
    (TokenStream.ofText mode text).errors = [] := by
  rcases exists_lexemes_of_run ran with ⟨lexemes, items⟩
  have quiet := warnings_eq_nil_of_lex items store
  exact List.map_eq_nil_iff.mp quiet

theorem exists_failure_of_errors {mode : Mode} {text : String}
    (reported : (TokenStream.ofText mode text).errors ≠ []) (store : Store) :
    ∃ failure, (Run.ofText mode text store).result = .error failure ∧
      (Run.ofText mode text store).storeAfter store = store := by
  cases ran : (Run.ofText mode text store).result with
  | ok after => exact absurd (errors_eq_nil_of_run ran) reported
  | error failure => exact ⟨failure, rfl, by rw [Run.storeAfter, ran]⟩

/-! ## Runs that report to one place -/

namespace Session

/-- A text to be run. -/
structure Call where
  mode : Mode
  text : String
  /-- The store to run it on, where that is not the one that the session has. -/
  store? : Option Store

/-- A warning for each lexical error of the text. -/
def Call.warnings (call : Call) : List Warning :=
  (TokenStream.ofText call.mode call.text).errors.map (⟨⟨"<input>", call.text⟩, ·⟩)

def perform (session : Session) (call : Call) : Except Failure Store × Session :=
  { session with store := call.store?.getD session.store }.run call.mode call.text

def performAll (session : Session) (calls : List Call) : Session :=
  calls.foldl (fun session call => (session.perform call).2) session

theorem warnings_perform (session : Session) (call : Call) :
    (session.perform call).2.warnings = session.warnings ++ call.warnings := rfl

theorem warnings_performAll (session : Session) (calls : List Call) :
    (session.performAll calls).warnings = session.warnings ++ calls.flatMap Call.warnings := by
  induction calls generalizing session with
  | nil => exact (List.append_nil _).symm
  | cons call calls induction =>
      have further := induction (session.perform call).2
      rw [warnings_perform, List.append_assoc, ← List.flatMap_cons] at further
      exact further

theorem warnings_perform_of_ok {session : Session} {call : Call} {after : Store}
    (ran : (session.perform call).1 = .ok after) :
    (session.perform call).2.warnings = session.warnings := by
  have quiet : (TokenStream.ofText call.mode call.text).errors = [] := errors_eq_nil_of_run ran
  rw [warnings_perform, Call.warnings, quiet, List.map_nil, List.append_nil]

end Session

/-- The malformed tokens of a text are those of its lexical errors, one for each and at its place,
and the errors stand one behind the other. A run reports all of them, and if there are any it
fails and leaves the store as it was. Runs that report to one place report the errors of their
texts one after the other, on whichever stores they work, and one that succeeds adds none. -/
theorem lexical_errors_are_reported (mode : Mode) (text : String) :
    (TokenStream.ofText mode text).lexemes.filter Lexeme.isMalformed =
      (TokenStream.ofText mode text).errors.map LexicalError.lexeme ∧
    ((TokenStream.ofText mode text).errors.Pairwise fun first second =>
      first.span.start < second.span.start) ∧
    (∀ store, (Run.ofText mode text store).warnings =
      (TokenStream.ofText mode text).errors.map (⟨⟨"<input>", text⟩, ·⟩)) ∧
    ((TokenStream.ofText mode text).errors ≠ [] → ∀ store,
      ∃ failure, (Run.ofText mode text store).result = .error failure ∧
        (Run.ofText mode text store).storeAfter store = store) ∧
    (∀ (session : Session) (calls : List Session.Call),
      (session.performAll calls).warnings =
        session.warnings ++ calls.flatMap Session.Call.warnings) ∧
    (∀ (session : Session) (call : Session.Call) (after : Store),
      (session.perform call).1 = .ok after →
      (session.perform call).2.warnings = session.warnings) := by
  refine ⟨?_, ?_, ?_, ?_, ?_, ?_⟩
  · exact TokenStream.filter_isMalformed_lexemes mode text
  · exact TokenStream.pairwise_start_errors mode text
  · intro store
    rfl
  · intro reported store
    exact exists_failure_of_errors reported store
  · intro session calls
    exact session.warnings_performAll calls
  · intro session call after ran
    exact Session.warnings_perform_of_ok ran

/-- A character that begins no token, and a line that is given up. -/
def twoErrors : String := "x = # 01\n;"

/-- The text with the errors between two that succeed, the last of them on a store of its own. -/
def callsAroundErrors : List Session.Call :=
  [⟨.strict, "x = 7;", none⟩, ⟨.strict, twoErrors, none⟩,
    ⟨.permissive, "y = x;", some (Store.empty.set "x" 3)⟩]

theorem lexical_errors_are_reported_twoErrors :
    (TokenStream.ofText .strict twoErrors).errors =
      [⟨.unrecognized '#', ⟨4, 5⟩⟩, ⟨.leadingZero, ⟨6, 8⟩⟩] ∧
    (TokenStream.ofText .strict twoErrors).lexemes.filter Lexeme.isMalformed =
      [⟨.malformed, ⟨4, 5⟩⟩, ⟨.malformed, ⟨6, 8⟩⟩] ∧
    (∃ failure, (Run.ofText .strict twoErrors .empty).result = .error failure ∧
      (Run.ofText .strict twoErrors .empty).storeAfter .empty = .empty) ∧
    (Session.start.performAll callsAroundErrors).warnings =
      [⟨⟨"<input>", twoErrors⟩, ⟨.unrecognized '#', ⟨4, 5⟩⟩⟩,
        ⟨⟨"<input>", twoErrors⟩, ⟨.leadingZero, ⟨6, 8⟩⟩⟩] ∧
    (Session.start.perform ⟨.strict, "x = 7;", none⟩).1 = .ok (Store.empty.set "x" 7) ∧
    (Session.start.perform ⟨.strict, "x = 7;", none⟩).2.warnings = [] := by
  rcases lexical_errors_are_reported .strict twoErrors with
    ⟨malformed, _, _, fails, collected, quiet⟩
  have errors : (TokenStream.ofText .strict twoErrors).errors =
      [⟨.unrecognized '#', ⟨4, 5⟩⟩, ⟨.leadingZero, ⟨6, 8⟩⟩] := by decide +kernel
  have ran : (Session.start.perform ⟨.strict, "x = 7;", none⟩).1 =
      .ok (Store.empty.set "x" 7) := by decide +kernel
  have warnings : Session.start.warnings ++ callsAroundErrors.flatMap Session.Call.warnings =
      [⟨⟨"<input>", twoErrors⟩, ⟨.unrecognized '#', ⟨4, 5⟩⟩⟩,
        ⟨⟨"<input>", twoErrors⟩, ⟨.leadingZero, ⟨6, 8⟩⟩⟩] := by decide +kernel
  rw [errors] at malformed
  exact ⟨errors, malformed, fails (by simp [errors]) .empty,
    (collected .start callsAroundErrors).trans warnings, ran, quiet _ _ _ ran⟩

end Abacus
