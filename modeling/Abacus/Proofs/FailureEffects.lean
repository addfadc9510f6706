import Abacus.Proofs.Inputs
import Abacus.Proofs.Sessions

/-! # What a failure leaves behind

A program that is evaluated on its own stops at the first statement that fails, and the statements
before it have had their effect. A text that is run has no effect at all if it fails, however many
of its statements were evaluated by then. -/

namespace Abacus

open Grammar

/-! ## Evaluation -/

/-- So many statements are evaluated, from one store to the other, and the next one fails there. -/
structure FailsBehind (before : Store) (statements : List Assignment) (count : Nat)
    (error : EvalError) (after : Store) : Prop where
  evaluated : evalStatements before (statements.take count) = (.ok (), after)
  fails : ∃ failing, statements[count]? = some failing ∧ failing.eval after = .error error

section FailsBehind

variable {before after between : Store} {first : Assignment} {rest : List Assignment}
  {count : Nat} {error : EvalError}

theorem not_failsBehind_nil : ¬ FailsBehind before [] count error after := by
  rintro ⟨_, failing, found, _⟩
  contradiction

theorem failsBehind_cons_of_error {cause : EvalError} (failed : first.eval before = .error cause) :
    FailsBehind before (first :: rest) count error after ↔
      (cause = error ∧ before = after) ∧ count = 0 := by
  cases count with
  | zero =>
      constructor
      · rintro ⟨evaluated, failing, found, fails⟩
        cases evaluated
        cases found
        cases failed.symm.trans fails
        exact ⟨⟨rfl, rfl⟩, rfl⟩
      · rintro ⟨⟨rfl, rfl⟩, _⟩
        exact ⟨rfl, first, rfl, failed⟩
  | succ count =>
      simp only [Nat.succ_ne_zero, and_false, iff_false]
      rintro ⟨evaluated, _⟩
      rw [List.take_succ_cons, evalStatements, failed] at evaluated
      cases evaluated

theorem failsBehind_cons_zero_of_ok (evaluated : first.eval before = .ok between) :
    ¬ FailsBehind before (first :: rest) 0 error after := by
  rintro ⟨unmoved, failing, found, fails⟩
  cases unmoved
  cases found
  cases evaluated.symm.trans fails

theorem failsBehind_cons_succ_of_ok (evaluated : first.eval before = .ok between) :
    FailsBehind before (first :: rest) (count + 1) error after ↔
      FailsBehind between rest count error after := by
  have same : evalStatements before ((first :: rest).take (count + 1)) =
      evalStatements between (rest.take count) := by
    rw [List.take_succ_cons, evalStatements, evaluated]
  constructor
  · rintro ⟨ran, fails⟩
    exact ⟨same ▸ ran, fails⟩
  · rintro ⟨ran, fails⟩
    exact ⟨same.trans ran, fails⟩

/-- Evaluation fails in exactly one place, which is behind the statements that are executed. -/
theorem failsBehind_iff {statements : List Assignment} :
    FailsBehind before statements count error after ↔
      evalStatements before statements = (.error error, after) ∧
        count = (executed before statements).length := by
  induction statements generalizing before count with
  | nil => simp [not_failsBehind_nil, evalStatements]
  | cons first rest induction =>
      rw [evalStatements, executed]
      cases evaluated : first.eval before with
      | error cause => simp [failsBehind_cons_of_error evaluated]
      | ok between =>
          cases count with
          | zero => simp [failsBehind_cons_zero_of_ok evaluated]
          | succ count =>
              rw [failsBehind_cons_succ_of_ok evaluated, induction]
              simp

end FailsBehind

/-! ## Runs -/

/-- Why a run does not get past its next statement: it cannot be read, or it cannot be evaluated in
the store so far. -/
inductive StuckOn (source : Source) (store : Store) (input : List Lexeme) : Failure → Prop
  | unread (due : hasStatement input = true) (unread : assignment input = .failed error left) :
      StuckOn source store input (.parsing source error)
  | unevaluated (due : hasStatement input = true) (read : (assignment input).Gives statement rest)
      (fails : statement.eval store = .error error) :
      StuckOn source store input (.evaluation source error)

/-- A run that fails has evaluated the statements before the one that it is stuck on. -/
theorem exists_stuckOn_of_execute {source : Source} {store : Store} {input : List Lexeme}
    {failure : Failure} (failed : execute source store input = .error failure) :
    ∃ evaluated between rest, ReadTo input evaluated rest ∧
      evalStatements store evaluated = (.ok (), between) ∧
      StuckOn source between rest failure := by
  fun_induction execute source store input with
  | case1 store input due error left unread =>
      cases failed
      exact ⟨[], store, input, .nil, rfl, .unread due unread⟩
  | case2 store input due first rest shorter read error fails =>
      cases failed
      exact ⟨[], store, input, .nil, rfl, .unevaluated due ⟨shorter, read⟩ fails⟩
  | case3 store input due first rest shorter read after evaluated induction =>
      rcases induction failed with ⟨further, between, final, reading, ran, stuck⟩
      refine ⟨first :: further, between, final, .cons due ⟨shorter, read⟩ reading, ?_, stuck⟩
      rw [evalStatements, evaluated]
      exact ran
  | case4 store input finished => contradiction

/-- A program that fails has a single place where it does: the statements before it are evaluated
and leave the store that is left in the end, and the next one fails there with the error that is
given. A text that fails has evaluated the statements before the one that it is stuck on, for
whatever reason it is, and yet the store of the session is the one before. -/
theorem failure_effects :
    (∀ (program : Program) (store after : Store) (error : EvalError),
      program.eval store = (.error error, after) →
      ∃ count, FailsBehind store program.statements count error after ∧
        ∀ other cause between, FailsBehind store program.statements other cause between →
          other = count) ∧
    (∀ (mode : Mode) (text : String) (session : Session) (failure : Failure),
      (session.run mode text).1 = .error failure →
      (∃ evaluated between rest, ReadTo (TokenStream.ofText mode text).lexemes evaluated rest ∧
        evalStatements session.store evaluated = (.ok (), between) ∧
        StuckOn ⟨"<input>", text⟩ between rest failure) ∧
      (session.run mode text).2.store = session.store) := by
  constructor
  · intro program store after error failed
    refine ⟨(executed store program.statements).length, ?_, ?_⟩
    · exact failsBehind_iff.mpr ⟨failed, rfl⟩
    · intro other cause between fails
      exact (failsBehind_iff.mp fails).2
  · intro mode text session failure failed
    exact ⟨exists_stuckOn_of_execute failed, Session.store_run_of_error mode failed⟩

/-- The third statement reads a variable that has no value, behind two that set another one. -/
def stopsAtThird : Program :=
  ⟨[⟨"x", ⟨0, 1⟩, .integer 2 ⟨4, 5⟩, ⟨0, 6⟩⟩,
    ⟨"x", ⟨7, 8⟩, .binary .star (.identifier "x" ⟨11, 12⟩) (.identifier "x" ⟨15, 16⟩) ⟨11, 16⟩,
      ⟨7, 17⟩⟩,
    ⟨"y", ⟨18, 19⟩, .identifier "q" ⟨22, 23⟩, ⟨18, 24⟩⟩], ⟨0, 24⟩⟩

theorem failure_effects_stopsAtThird :
    parseText .strict "x = 2; x = x * x; y = q;" = .ok stopsAtThird ∧
    stopsAtThird.eval (Store.empty.set "x" 7) =
      (.error ⟨.undefinedVariable "q", ⟨22, 23⟩⟩, Store.empty.set "x" 4) ∧
    (∀ other cause between, FailsBehind (Store.empty.set "x" 7) stopsAtThird.statements other cause
      between → other = 2) ∧
    (∀ text ∈ ["x = 2; x = x * x; y = q;", "x = 2; x = x * x; y = ;", "x = 2; 01"],
      ∃ failure, (Session.run ⟨Store.empty.set "x" 7, []⟩ .strict text).1 = .error failure ∧
        (Session.run ⟨Store.empty.set "x" 7, []⟩ .strict text).2.store =
          Store.empty.set "x" 7) := by
  have failed : stopsAtThird.eval (Store.empty.set "x" 7) =
      (.error ⟨.undefinedVariable "q", ⟨22, 23⟩⟩, Store.empty.set "x" 4) := by decide +kernel
  have behindTwo : FailsBehind (Store.empty.set "x" 7) stopsAtThird.statements 2
      ⟨.undefinedVariable "q", ⟨22, 23⟩⟩ (Store.empty.set "x" 4) :=
    ⟨by decide +kernel, _, rfl, by decide +kernel⟩
  rcases failure_effects with ⟨evaluation, runs⟩
  rcases evaluation _ _ _ _ failed with ⟨count, _, only⟩
  cases only _ _ _ behindTwo
  refine ⟨by decide +kernel, failed, only, ?_⟩
  intro text member
  have fails : ∀ text ∈ ["x = 2; x = x * x; y = q;", "x = 2; x = x * x; y = ;", "x = 2; 01"],
      (Session.run ⟨Store.empty.set "x" 7, []⟩ .strict text).1.isOk = false := by decide +kernel
  cases ran : (Session.run ⟨Store.empty.set "x" 7, []⟩ .strict text).1 with
  | ok after =>
      have failing := fails text member
      rw [ran] at failing
      contradiction
  | error failure => exact ⟨failure, rfl, (runs _ _ _ _ ran).2⟩

end Abacus
