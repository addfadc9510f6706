import Abacus.Console
import Abacus.Proofs.Concatenation

/-! # Sessions

Lines that are run one after the other on one store. A line that fails leaves the store as it
was, so only the lines that succeed count, and these come to the same as one text that holds
them all. -/

namespace Abacus

open Grammar

/-! ## One text for two -/

/-- Statements that are evaluated run to the same store wherever they stand. -/
theorem execute_of_erased_eq (source : Source) {derivation : List Derivation.Statement}
    {store after : Store}
    (evaluated : evalStatements store (derivation.map Derivation.Statement.tree) =
      (.ok (), after))
    {final : Lexeme} {input : List Lexeme}
    (same : input.map Relocation.erase.lexeme =
      (Derivation.programLexemes derivation ++ [final]).map Relocation.erase.lexeme) :
    execute source store input = .ok after := by
  rw [List.map_append] at same
  rcases List.map_eq_append_iff.mp same with ⟨front, back, rfl, sameFront, sameBack⟩
  rcases List.map_eq_singleton_iff.mp sameBack with ⟨last, rfl, _⟩
  rw [execute_append source evaluated sameFront]
  exact execute_of_not_hasStatement source rfl after

/-- Up to places, the tokens of two lines are those of the first without their end and those
of the second. -/
theorem TokenStream.erased_append_newline (mode : Mode) (first second : String) :
    (ofText mode (first ++ "\n" ++ second)).lexemes.map Relocation.erase.lexeme =
      (ofText mode first).lexemes.dropLast.map Relocation.erase.lexeme ++
        (ofText mode second).lexemes.map Relocation.erase.lexeme := by
  rcases lexemes_append_newline mode first second with ⟨front, back, equal, sameFront, sameBack⟩
  rw [equal, List.map_append, sameFront]
  congr 1
  rcases sameBack with rfl | ⟨rfl, span, rfl⟩
  · rw [List.map_map]
    rfl
  · rw [lexemes_ofText, lex_empty]
    rfl

theorem run_ok_append_newline {mode : Mode} {first second : String}
    {store between after : Store} (ran : (Run.ofText mode first store).result = .ok between)
    (ranNext : (Run.ofText mode second between).result = .ok after) :
    (Run.ofText mode (first ++ "\n" ++ second) store).result = .ok after := by
  rcases exists_derivation_of_execute (TokenStream.closed_ofItems _) ran with
    ⟨derivation, stop, equal, evaluated⟩
  rcases exists_derivation_of_execute (TokenStream.closed_ofItems _) ranNext with
    ⟨derivationNext, stopNext, equalNext, evaluatedNext⟩
  have equalFirst : (TokenStream.ofText mode first).lexemes = _ := equal
  have equalSecond : (TokenStream.ofText mode second).lexemes = _ := equalNext
  have lexemes := TokenStream.erased_append_newline mode first second
  rw [equalFirst, List.dropLast_concat, equalSecond] at lexemes
  rcases List.map_eq_append_iff.mp lexemes with ⟨front, back, split, sameFront, sameBack⟩
  simp only [Run.ofText, Run.ofStream]
  rw [split, execute_append _ evaluated sameFront]
  exact execute_of_erased_eq _ evaluatedNext sameBack

theorem run_empty (mode : Mode) (store : Store) :
    (Run.ofText mode "" store).result = .ok store := by
  simp only [Run.ofText, Run.ofStream, TokenStream.lexemes_ofText, lex_empty]
  exact execute_of_not_hasStatement _ rfl store

/-! ## Line by line -/

namespace Session

/-- A line that was run: what it came to, and the store behind it. -/
structure Turn where
  line : String
  result : Except Failure Store
  after : Store

/-- The turns of lines that are run one after the other. -/
def turns (mode : Mode) (session : Session) : List String → List Turn
  | [] => []
  | line :: rest =>
      let step := session.run mode line
      ⟨line, step.1, step.2.store⟩ :: turns mode step.2 rest

/-- The session behind lines that are run one after the other. -/
def runLines (mode : Mode) (session : Session) (lines : List String) : Session :=
  lines.foldl (fun session line => (session.run mode line).2) session

/-- The lines whose run succeeded. -/
def accepted (turns : List Turn) : List String :=
  (turns.filter (·.result.isOk)).map (·.line)

section Lines

variable (mode : Mode)

theorem accepted_cons_of_ok {turn : Turn} {after : Store} (ran : turn.result = .ok after)
    (turns : List Turn) : accepted (turn :: turns) = turn.line :: accepted turns := by
  rw [accepted, List.filter_cons_of_pos (by rw [ran]; rfl)]
  rfl

theorem accepted_cons_of_error {turn : Turn} {failure : Failure}
    (failed : turn.result = .error failure) (turns : List Turn) :
    accepted (turn :: turns) = accepted turns := by
  rw [accepted, List.filter_cons_of_neg (by rw [failed]; exact Bool.false_ne_true)]
  rfl

theorem turns_cons (session : Session) (line : String) (rest : List String) :
    session.turns mode (line :: rest) =
      ⟨line, (session.run mode line).1, (session.run mode line).2.store⟩ ::
        (session.run mode line).2.turns mode rest := rfl

theorem runLines_cons (session : Session) (line : String) (rest : List String) :
    session.runLines mode (line :: rest) = (session.run mode line).2.runLines mode rest := rfl

theorem run_fst (session : Session) (line : String) :
    (session.run mode line).1 = (Run.ofText mode line session.store).result := rfl

/-- Only the store of a session decides what a line comes to. -/
theorem turns_congr {first second : Session} (same : first.store = second.store)
    (lines : List String) : first.turns mode lines = second.turns mode lines := by
  induction lines generalizing first second with
  | nil => rfl
  | cons line rest induction =>
      simp only [turns_cons, run, same]
      congr 1
      exact induction rfl

theorem store_runLines_congr {first second : Session} (same : first.store = second.store)
    (lines : List String) :
    (first.runLines mode lines).store = (second.runLines mode lines).store := by
  induction lines generalizing first second with
  | nil => exact same
  | cons line rest induction =>
      apply induction
      simp only [run, same]

theorem store_run_of_error {session : Session} {line : String} {failure : Failure}
    (failed : (session.run mode line).1 = .error failure) :
    (session.run mode line).2.store = session.store := by
  rw [run_fst] at failed
  simp only [run, Run.storeAfter, failed]

theorem store_run_of_ok {session : Session} {line : String} {after : Store}
    (ran : (session.run mode line).1 = .ok after) :
    (session.run mode line).2.store = after := by
  rw [run_fst] at ran
  simp only [run, Run.storeAfter, ran]

theorem take_turns (session : Session) (lines : List String) (count : Nat) :
    (session.turns mode lines).take count = session.turns mode (lines.take count) := by
  induction lines generalizing session count with
  | nil => simp [turns]
  | cons line rest induction =>
      cases count with
      | zero => rfl
      | succ count =>
          rw [List.take_succ_cons, turns_cons, turns_cons, List.take_succ_cons, induction]

/-- The lines that succeed run as one text, from the store of the session to the store behind
its last line. -/
theorem run_accepted (session : Session) (lines : List String) :
    (Run.ofText mode ("\n".intercalate (accepted (session.turns mode lines)))
      session.store).result = .ok (session.runLines mode lines).store := by
  induction lines generalizing session with
  | nil => exact run_empty mode session.store
  | cons line rest induction =>
      have further := induction (session.run mode line).2
      rw [turns_cons, runLines_cons]
      cases ran : (session.run mode line).1 with
      | error failure =>
          rw [accepted_cons_of_error rfl]
          rw [store_run_of_error mode ran] at further
          exact further
      | ok after =>
          rw [accepted_cons_of_ok rfl]
          rw [store_run_of_ok mode ran] at further
          rw [run_fst] at ran
          cases later : accepted ((session.run mode line).2.turns mode rest) with
          | nil =>
              rw [later] at further
              have done : Except.ok after = _ := (run_empty mode after).symm.trans further
              rw [String.intercalate_singleton, ran, done]
          | cons next others =>
              rw [later] at further
              rw [String.intercalate_cons_cons]
              exact run_ok_append_newline ran further

/-- Without a line that fails, all other lines come to the same. -/
theorem turns_eraseIdx (session : Session) (lines : List String) {index : Nat} {turn : Turn}
    (found : (session.turns mode lines)[index]? = some turn)
    (failed : turn.result.isOk = false) :
    session.turns mode (lines.eraseIdx index) = (session.turns mode lines).eraseIdx index ∧
    (session.runLines mode (lines.eraseIdx index)).store =
      (session.runLines mode lines).store := by
  induction lines generalizing session index with
  | nil => simp [turns] at found
  | cons line rest induction =>
      cases index with
      | zero =>
          rw [turns_cons, List.getElem?_cons_zero, Option.some.injEq] at found
          cases ran : (session.run mode line).1 with
          | ok after =>
              rw [← found, ran] at failed
              contradiction
          | error failure =>
              have same := (store_run_of_error mode ran).symm
              exact ⟨turns_congr mode same rest, store_runLines_congr mode same rest⟩
      | succ index =>
          rcases induction (session.run mode line).2 found with ⟨sameTurns, sameStore⟩
          refine ⟨?_, sameStore⟩
          rw [List.eraseIdx_cons_succ, turns_cons, turns_cons, List.eraseIdx_cons_succ, sameTurns]

end Lines

end Session

/-! ## At the console -/

namespace Console

/-- Whether a line is run as a program. The others are answered without running anything. -/
def isSource (line : String) : Bool :=
  line != "" && line != ".vars" && line != ".exit"

theorem isSource_of_ne {line : String} (notEmpty : line ≠ "") (notVars : line ≠ ".vars")
    (notExit : line ≠ ".exit") : isSource line = true := by
  simp only [isSource, Bool.and_eq_true, bne_iff_ne]
  exact ⟨⟨notEmpty, notVars⟩, notExit⟩

/-- The store behind lines that are answered one after the other, if none of them ends the
conversation. -/
def storeBehind? (mode : Mode) (store : Store) (lines : List String) : Option Store :=
  lines.foldlM (fun store line => (runLine mode store line).next) store

theorem next_runLine (mode : Mode) (session : Session) {line : String}
    (stays : withoutLineEnd line ≠ ".exit") :
    (runLine mode session.store line).next =
      if isSource (withoutLineEnd line) then
        some (session.run mode (withoutLineEnd line)).2.store
      else some session.store := by
  unfold runLine
  split
  · next equal => rw [equal]; rfl
  · next equal => exact absurd equal stays
  · next equal => rw [equal]; rfl
  · next notEmpty notExit notVars =>
      rw [if_pos (isSource_of_ne notEmpty notVars notExit)]
      simp only [Session.run, Run.storeAfter]
      cases (Run.ofText mode (withoutLineEnd line) session.store).result with
      | ok after => rfl
      | error failure => rfl

theorem storeBehind?_eq (mode : Mode) (session : Session) {lines : List String}
    (stays : ∀ line ∈ lines, withoutLineEnd line ≠ ".exit") :
    storeBehind? mode session.store lines =
      some (session.runLines mode ((lines.map withoutLineEnd).filter isSource)).store := by
  induction lines generalizing session with
  | nil => rfl
  | cons line rest induction =>
      have further := fun next : Session => induction next fun other member =>
        stays other (List.mem_cons_of_mem line member)
      have answered := next_runLine mode session (stays line List.mem_cons_self)
      rw [storeBehind?, List.foldlM_cons, answered, List.map_cons, List.filter_cons]
      split
      · exact further _
      · exact further session

end Console

/-- After any number of lines the store is the one that a single text leaves, which joins the
lines so far that succeeded. A line that fails can be left out without a change to what any
other line comes to. The console keeps the store of the session that runs its sources. -/
theorem session_eq_program (mode : Mode) (lines : List String) :
    (∀ count, (Run.ofText mode
        ("\n".intercalate (Session.accepted ((Session.start.turns mode lines).take count)))
        .empty).result = .ok (Session.start.runLines mode (lines.take count)).store) ∧
    (∀ index turn, (Session.start.turns mode lines)[index]? = some turn →
      turn.result.isOk = false →
      Session.start.turns mode (lines.eraseIdx index) =
        (Session.start.turns mode lines).eraseIdx index ∧
      (Session.start.runLines mode (lines.eraseIdx index)).store =
        (Session.start.runLines mode lines).store) ∧
    ((∀ line ∈ lines, Console.withoutLineEnd line ≠ ".exit") →
      Console.storeBehind? mode .empty lines =
        some (Session.start.runLines mode
          ((lines.map Console.withoutLineEnd).filter Console.isSource)).store) := by
  refine ⟨fun count => ?_, fun index turn found failed => ?_, fun stays => ?_⟩
  · rw [Session.take_turns]
    exact Session.run_accepted mode .start (lines.take count)
  · exact Session.turns_eraseIdx mode .start lines found failed
  · exact Console.storeBehind?_eq mode .start stays

/-- The second line fails behind its first assignment, and the third is no program. -/
def linesWithFailures : List String := ["x = 2;", "x = 3; y = q;", ".vars", "y = x * x;"]

theorem session_eq_program_linesWithFailures :
    (Run.ofText .permissive "x = 2;\ny = x * x;" .empty).result =
      .ok ((Store.empty.set "x" 2).set "y" 4) ∧
    (∃ turn, (Session.start.turns .permissive linesWithFailures)[1]? = some turn ∧
      turn.result.isOk = false) ∧
    Session.start.turns .permissive ["x = 2;", ".vars", "y = x * x;"] =
      (Session.start.turns .permissive linesWithFailures).eraseIdx 1 ∧
    (∀ line ∈ linesWithFailures, Console.withoutLineEnd line ≠ ".exit") ∧
    Console.storeBehind? .permissive .empty linesWithFailures =
      some ((Store.empty.set "x" 2).set "y" 4) := by
  rcases session_eq_program .permissive linesWithFailures with ⟨joined, without, console⟩
  have lines : Session.accepted ((Session.start.turns .permissive linesWithFailures).take 4) =
      ["x = 2;", "y = x * x;"] := by decide +kernel
  have store : (Session.start.runLines .permissive (linesWithFailures.take 4)).store =
      (Store.empty.set "x" 2).set "y" 4 := by decide +kernel
  have sources : (Session.start.runLines .permissive
      ((linesWithFailures.map Console.withoutLineEnd).filter Console.isSource)).store =
        (Store.empty.set "x" 2).set "y" 4 := by decide +kernel
  have stays : ∀ line ∈ linesWithFailures, Console.withoutLineEnd line ≠ ".exit" := by
    decide +kernel
  have failing : ∃ turn, (Session.start.turns .permissive linesWithFailures)[1]? = some turn ∧
      turn.result.isOk = false := ⟨_, rfl, by decide +kernel⟩
  have joinedAll := joined 4
  rw [lines, store] at joinedAll
  rcases failing with ⟨turn, found, failed⟩
  exact ⟨joinedAll, ⟨turn, found, failed⟩, (without 1 turn found failed).1, stays,
    (console stays).trans (congrArg some sources)⟩

end Abacus
