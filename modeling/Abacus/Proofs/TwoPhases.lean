import Abacus.Execution
import Abacus.Proofs.Acceptance

/-! # Running in two phases

A run evaluates each statement as soon as it is read. It comes to the same as reading
the whole program first and evaluating it then, except for which error is met first:
statements that are read are evaluated even if a later one cannot be read. -/

namespace Abacus

open Grammar

variable (source : Source)

theorem execute_of_readTo {input rest : List Lexeme} {read : List Assignment}
    (reading : ReadTo input read rest) (store : Store) :
    execute source store input =
      match evalStatements store read with
      | (.error error, _) => .error (.evaluation source error)
      | (.ok (), after) => execute source after rest := by
  induction reading generalizing store with
  | nil => rfl
  | cons due read further induction =>
      rename_i first middle later rest
      rcases read with ⟨shorter, equal⟩
      rw [execute, if_pos due, equal]
      simp only [evalStatements]
      cases first.eval store with
      | error error => rfl
      | ok after => exact induction after

theorem execute_of_not_hasStatement {input : List Lexeme} (finished : hasStatement input = false)
    (store : Store) : execute source store input = .ok store := by
  rw [execute, if_neg (by simp [finished])]

theorem execute_of_failed {input left : List Lexeme} {error : SyntaxError}
    (due : hasStatement input = true) (failed : assignment input = .failed error left)
    (store : Store) : execute source store input = .error (.parsing source error) := by
  rw [execute, if_pos due, failed]

section Results

variable {source} {input rest : List Lexeme} {read : List Assignment}
  {result : Except SyntaxError Unit} {store : Store}

theorem execute_eq_ok_iff (reading : ReadTo input read rest) (stops : StopsWith rest result)
    {after : Store} :
    execute source store input = .ok after ↔
      result = .ok () ∧ evalStatements store read = (.ok (), after) := by
  rw [execute_of_readTo source reading]
  cases evaluated : evalStatements store read with
  | mk outcome between =>
      cases outcome with
      | error error => simp
      | ok done =>
          cases stops with
          | finished finished => simp [execute_of_not_hasStatement source finished]
          | failed due failed => simp [execute_of_failed source due failed]

theorem execute_eq_error_iff (reading : ReadTo input read rest) (stops : StopsWith rest result)
    {failure : Failure} :
    execute source store input = .error failure ↔
      (∃ error, (evalStatements store read).1 = .error error ∧
        failure = .evaluation source error) ∨
      ((evalStatements store read).1 = .ok () ∧
        ∃ error, result = .error error ∧ failure = .parsing source error) := by
  rw [execute_of_readTo source reading]
  cases evaluated : evalStatements store read with
  | mk outcome between =>
      cases outcome with
      | error error => simp [eq_comm]
      | ok done =>
          cases stops with
          | finished finished => simp [execute_of_not_hasStatement source finished]
          | failed due failed => simp [execute_of_failed source due failed, eq_comm]

end Results

/-- A run succeeds exactly if the whole program is read and its evaluation succeeds, with
the store that this leaves. Otherwise the error is that of evaluating the statements
before the first one that cannot be read, and if there is none, that of reading. -/
theorem run_iff_parse_then_eval (mode : Mode) (text : String) (store : Store) :
    ∃ read rest result, ReadTo (TokenStream.ofText mode text).lexemes read rest ∧
      StopsWith rest result ∧
      parseText mode text = result.map (fun _ => .ofStatements read) ∧
      (∀ after, (Run.ofText mode text store).result = .ok after ↔
        ∃ program, parseText mode text = .ok program ∧ program.eval store = (.ok (), after)) ∧
      (∀ failure, (Run.ofText mode text store).result = .error failure ↔
        (∃ error, (evalStatements store read).1 = .error error ∧
          failure = .evaluation ⟨"<input>", text⟩ error) ∨
        ((evalStatements store read).1 = .ok () ∧
          ∃ error, parseText mode text = .error error ∧
            failure = .parsing ⟨"<input>", text⟩ error)) := by
  rcases exists_readTo_of_parse (TokenStream.ofText mode text) with
    ⟨read, rest, result, reading, stops, parsed⟩
  have parsedText : parseText mode text = result.map (fun _ => .ofStatements read) := parsed
  refine ⟨read, rest, result, reading, stops, parsedText, fun after => ?_, fun failure => ?_⟩
  · have ran : (Run.ofText mode text store).result = .ok after ↔ _ :=
      execute_eq_ok_iff reading stops
    rw [ran, parsedText]
    cases result with
    | error error => simp [Except.map]
    | ok done => simp [Except.map, Program.eval, Program.statements_ofStatements]
  · have ran : (Run.ofText mode text store).result = .error failure ↔ _ :=
      execute_eq_error_iff reading stops
    rw [ran, parsedText]
    cases result with
    | error error => simp [Except.map]
    | ok done => simp [Except.map]

end Abacus
