import Abacus.Proofs.Lines
import Abacus.Proofs.TwoPhases
import Mathlib.Control.Monad.Basic

/-! # Running one text after another

A text that runs to its end is read as a row of statements, and it still is when a
newline and another text follow. The other text then starts in the store that the first
one leaves, and all its places are as much farther on as the first one is long. -/

namespace Abacus

open Grammar

/-! ## Running at other places -/

theorem execute_relocated (relocation : Relocation) (source target : Source)
    {input : List Lexeme} (closed : Closed input) (store : Store) :
    execute target store (input.map relocation.lexeme) =
      (execute source store input).mapError (relocation.failure target) := by
  fun_induction execute source store input with
  | case1 store input due error rest failed =>
      have located := located_assignment closed
      rw [failed] at located
      rw [execute, hasStatement_relocated, if_pos due, assignment_relocated, failed]
      simp only [Relocation.outcome, relocation.syntaxError_of_ne located]
      rfl
  | case2 store input due assignment rest shorter read error failed =>
      rw [execute, hasStatement_relocated, if_pos due, assignment_relocated, read]
      simp only [Relocation.outcome, Assignment.eval_relocated, failed]
      rfl
  | case3 store input due assignment rest shorter read after evaluated induction =>
      rw [execute, hasStatement_relocated, if_pos due, assignment_relocated, read]
      simp only [Relocation.outcome, Assignment.eval_relocated, evaluated]
      exact induction (closed.of_assignment read)
  | case4 store input finished =>
      rw [execute, hasStatement_relocated, if_neg finished]
      rfl

/-! ## The same tokens at other places -/

/-- Tokens that are derived are derived at all places. -/
theorem exists_derivation_of_erased_eq {derivation : List Derivation.Statement}
    {lexemes : List Lexeme}
    (same : lexemes.map Relocation.erase.lexeme =
      (Derivation.programLexemes derivation).map Relocation.erase.lexeme) :
    ∃ other, lexemes = Derivation.programLexemes other ∧
      (other.map Derivation.Statement.tree).map Relocation.erase.assignment =
        (derivation.map Derivation.Statement.tree).map Relocation.erase.assignment := by
  -- Both rows are read with an end of the same place behind them, so that erasing all
  -- places makes them one row.
  let final : Lexeme := ⟨.eof, .point 0⟩
  have read := statements_relocated .erase (Derivation.programLexemes derivation ++ [final])
  have reread := statements_relocated .erase (lexemes ++ [final])
  rw [List.map_append, same, ← List.map_append, read, statements_programLexemes] at reread
  simp only [Prod.mk.injEq] at reread
  rcases reread with ⟨sameTrees, succeeds, _⟩
  have closed : Closed (lexemes ++ [final]) := ⟨.point 0, by simp [final]⟩
  have readAll : (statements (lexemes ++ [final])).2.1 = .ok () := by
    cases result : (statements (lexemes ++ [final])).2.1 with
    | error error =>
        rw [result] at succeeds
        contradiction
    | ok done => rfl
  rcases exists_derivation_of_statements closed readAll with ⟨other, stop, equal, trees⟩
  rcases List.append_inj' equal rfl with ⟨front, _⟩
  rw [trees] at sameTrees
  exact ⟨other, front, sameTrees.symm⟩

/-! ## Runs that succeed -/

theorem exists_derivation_of_execute {source : Source} {input : List Lexeme}
    (closed : Closed input) {store after : Store} (ran : execute source store input = .ok after) :
    ∃ derivation stop, input = Derivation.programLexemes derivation ++ [⟨.eof, stop⟩] ∧
      evalStatements store (derivation.map Derivation.Statement.tree) = (.ok (), after) := by
  rcases exists_readTo input with ⟨rest, reading, stops⟩
  rcases (execute_eq_ok_iff reading stops).mp ran with ⟨readAll, evaluated⟩
  rcases exists_derivation_of_statements closed readAll with ⟨derivation, stop, equal, trees⟩
  rw [trees] at evaluated
  exact ⟨derivation, stop, equal, evaluated⟩

/-- What follows statements that are evaluated runs in the store they leave, wherever they
stand. -/
theorem execute_append (source : Source) {derivation : List Derivation.Statement}
    {store after : Store}
    (evaluated : evalStatements store (derivation.map Derivation.Statement.tree) =
      (.ok (), after))
    {front : List Lexeme}
    (same : front.map Relocation.erase.lexeme =
      (Derivation.programLexemes derivation).map Relocation.erase.lexeme)
    (back : List Lexeme) :
    execute source store (front ++ back) = execute source after back := by
  rcases exists_derivation_of_erased_eq same with ⟨other, rfl, sameTrees⟩
  have erased := evalStatements_relocated .erase store (other.map Derivation.Statement.tree)
  rw [sameTrees, evalStatements_relocated, evaluated] at erased
  rw [execute_of_readTo source (readTo_programLexemes other back)]
  cases reevaluated : evalStatements store (other.map Derivation.Statement.tree) with
  | mk outcome between =>
      rw [reevaluated, Prod.mk.injEq] at erased
      rcases erased with ⟨succeeds, rfl⟩
      cases outcome with
      | error error => contradiction
      | ok done => rfl

/-! ## Texts -/

theorem TokenStream.lexemes_append_newline (mode : Mode) (first second : String) :
    ∃ front back, (ofText mode (first ++ "\n" ++ second)).lexemes = front ++ back ∧
      front.map Relocation.erase.lexeme =
        (ofText mode first).lexemes.dropLast.map Relocation.erase.lexeme ∧
      (back = (ofText mode second).lexemes.map
          (Relocation.shift (first.utf8ByteSize + 1)).lexeme ∨
        second = "" ∧ ∃ span, back = [⟨.eof, span⟩]) := by
  rcases lex_append_newline mode first second with ⟨front, back, items, sameFront, sameBack⟩
  refine ⟨front.map Item.lexeme, back.map Item.lexeme, ?_, ?_, ?_⟩
  · rw [lexemes_ofText, items, List.map_append]
  · have lexemes := congrArg (List.map Item.lexeme) sameFront
    simp only [List.map_map, Function.comp_def, Relocation.lexeme_item] at lexemes
    rw [lexemes_ofText, ← List.map_dropLast, List.map_map, List.map_map]
    exact lexemes
  · rcases sameBack with rfl | ⟨empty, span, rfl⟩
    · left
      rw [lexemes_ofText, List.map_map, List.map_map]
      apply List.map_congr_left
      intro item _
      exact Relocation.lexeme_item _ item
    · exact .inr ⟨empty, span, rfl⟩

/-- After a text that runs successfully, another text in the next line runs as it would
alone in the store that the first one leaves. If it fails, it fails with the same error, at
a place that is farther on by the first text and the newline. -/
theorem run_append_newline (mode : Mode) (first second : String) (store between : Store)
    (ran : (Run.ofText mode first store).result = .ok between) :
    (Run.ofText mode (first ++ "\n" ++ second) store).result =
      (Run.ofText mode second between).result.mapError
        ((Relocation.shift (first.utf8ByteSize + 1)).failure
          ⟨"<input>", first ++ "\n" ++ second⟩) := by
  rcases exists_derivation_of_execute (TokenStream.closed_ofItems _) ran with
    ⟨derivation, stop, equal, evaluated⟩
  rcases TokenStream.lexemes_append_newline mode first second with
    ⟨front, back, lexemes, sameFront, sameBack⟩
  have equalFirst : (TokenStream.ofText mode first).lexemes = _ := equal
  rw [equalFirst, List.dropLast_concat] at sameFront
  simp only [Run.ofText, Run.ofStream]
  rw [lexemes, execute_append _ evaluated sameFront]
  rcases sameBack with rfl | ⟨rfl, span, rfl⟩
  · exact execute_relocated _ _ _ (TokenStream.closed_ofItems _) between
  · rw [TokenStream.lexemes_ofText, lex_empty, execute_of_not_hasStatement _ rfl,
      execute_of_not_hasStatement _ rfl]
    rfl

/-- The places behind a character of two bytes that the lexer passes over. -/
theorem run_append_newline_undefinedVariable :
    (Run.ofText .permissive "x = 1;é" .empty).result = .ok (Store.empty.set "x" 1) ∧
    (Run.ofText .permissive ("x = 1;é" ++ "\n" ++ "y = x + z;") .empty).result =
      .error (.evaluation ⟨"<input>", "x = 1;é\ny = x + z;"⟩
        ⟨.undefinedVariable "z", ⟨17, 18⟩⟩) := by
  have ran : (Run.ofText .permissive "x = 1;é" .empty).result =
      .ok (Store.empty.set "x" 1) := by decide +kernel
  refine ⟨ran, ?_⟩
  rw [run_append_newline .permissive _ _ _ _ ran]
  decide +kernel

end Abacus
