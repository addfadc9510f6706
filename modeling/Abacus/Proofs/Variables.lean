import Abacus.Proofs.Concatenation

/-! # The variables of a program

What statements read and what they assign. A run that succeeds leaves every variable that is
assigned with the value of its last assignment and every other one as it was, and it reads no
variable before that has a value. -/

namespace Abacus

open Grammar

namespace Store

/-- The names that have a value, in ascending order. -/
def names (store : Store) : List String := store.entries.map (·.1)

theorem mem_map_iff_lookup {name : String} {entries : List (String × Int64)} :
    name ∈ entries.map (·.1) ↔ ∃ value, lookup name entries = some value := by
  induction entries with
  | nil => simp [lookup]
  | cons entry rest induction =>
      rw [List.map_cons, List.mem_cons, induction, lookup]
      by_cases same : entry.1 = name
      · simp [same]
      · simp [same, Ne.symm same]

theorem mem_names_iff {store : Store} {name : String} :
    name ∈ store.names ↔ ∃ value, store.get? name = some value :=
  mem_map_iff_lookup

end Store

/-! ## Reading -/

namespace Expression

/-- The variables of a tree, each as often as it is read. -/
def names : Expression → List String
  | identifier name _ => [name]
  | integer _ _ => []
  | unary _ operand _ => operand.names
  | binary _ left right _ => left.names ++ right.names
  | nested inner _ => inner.names

/-- Only a tree whose variables all have values has one. -/
theorem mem_names_of_eval {tree : Expression} {store : Store} {value : Int64}
    (evaluated : tree.eval store = .ok value) {name : String} (member : name ∈ tree.names) :
    name ∈ store.names := by
  induction tree generalizing value with
  | identifier read span =>
      rw [List.mem_singleton.mp member, Store.mem_names_iff]
      rw [eval] at evaluated
      cases found : store.get? read with
      | none =>
          rw [found] at evaluated
          contradiction
      | some stored => exact ⟨stored, rfl⟩
  | integer number span => contradiction
  | unary operator operand span induction =>
      rw [eval] at evaluated
      cases operandEvaluated : operand.eval store with
      | error error =>
          rw [operandEvaluated] at evaluated
          contradiction
      | ok operandValue => exact induction operandEvaluated member
  | binary operator left right span leftInduction rightInduction =>
      rw [eval] at evaluated
      cases leftEvaluated : left.eval store with
      | error error =>
          rw [leftEvaluated] at evaluated
          contradiction
      | ok leftValue =>
          cases rightEvaluated : right.eval store with
          | error error =>
              simp only [leftEvaluated, rightEvaluated] at evaluated
              contradiction
          | ok rightValue =>
              rcases List.mem_append.mp member with member | member
              · exact leftInduction leftEvaluated member
              · exact rightInduction rightEvaluated member
  | nested inner span induction => exact induction evaluated member

end Expression

/-! ## Assigning -/

theorem Assignment.eval_eq_ok_iff {assignment : Assignment} {store after : Store} :
    assignment.eval store = .ok after ↔
      ∃ value, assignment.value.eval store = .ok value ∧
        after = store.set assignment.name value := by
  rw [Assignment.eval]
  cases assignment.value.eval store with
  | error error => simp
  | ok value => simp [eq_comm]

theorem Assignment.eval_eq_error_iff {assignment : Assignment} {store : Store}
    {error : EvalError} :
    assignment.eval store = .error error ↔ assignment.value.eval store = .error error := by
  rw [Assignment.eval]
  cases assignment.value.eval store with
  | error cause => simp
  | ok value => simp

/-- The names that statements assign, each as often as it is assigned. -/
def targets (statements : List Assignment) : List String := statements.map (·.name)

theorem evalStatements_append (store : Store) (first second : List Assignment) :
    evalStatements store (first ++ second) =
      match evalStatements store first with
      | (.error error, between) => (.error error, between)
      | (.ok (), between) => evalStatements between second := by
  induction first generalizing store with
  | nil => rfl
  | cons assignment rest induction =>
      rw [List.cons_append, evalStatements, evalStatements]
      cases assignment.eval store with
      | error error => rfl
      | ok after => exact induction after

/-- Statements run through exactly if the first of them do and the others do behind them. -/
theorem evalStatements_append_eq_ok_iff {store after : Store} {first second : List Assignment} :
    evalStatements store (first ++ second) = (.ok (), after) ↔
      ∃ between, evalStatements store first = (.ok (), between) ∧
        evalStatements between second = (.ok (), after) := by
  rw [evalStatements_append]
  rcases evalStatements store first with ⟨outcome, between⟩
  cases outcome with
  | error error => simp
  | ok done => simp

theorem evalStatements_cons_eq_ok_iff {store after : Store} {first : Assignment}
    {rest : List Assignment} :
    evalStatements store (first :: rest) = (.ok (), after) ↔
      ∃ value, first.value.eval store = .ok value ∧
        evalStatements (store.set first.name value) rest = (.ok (), after) := by
  rw [evalStatements, Assignment.eval]
  cases first.value.eval store with
  | error error => simp
  | ok value => simp

/-- Statements leave alone what they do not assign, whether they run through or not. -/
theorem get?_evalStatements_of_notMem (store : Store) {statements : List Assignment}
    {name : String} (unassigned : name ∉ targets statements) :
    (evalStatements store statements).2.get? name = store.get? name := by
  induction statements generalizing store with
  | nil => rfl
  | cons first rest induction =>
      rw [targets, List.map_cons, List.mem_cons, not_or] at unassigned
      rw [evalStatements]
      cases evaluated : first.eval store with
      | error error => rfl
      | ok after =>
          rcases Assignment.eval_eq_ok_iff.mp evaluated with ⟨value, _, rfl⟩
          refine (induction _ unassigned.2).trans ?_
          rw [Store.get?_set, if_neg unassigned.1]

/-! ## The last assignment -/

/-- The last of the statements that assign the name gives it the value, in the store that the
statements before it leave. -/
def LastAssigns (before : Store) (statements : List Assignment) (name : String) (value : Int64) :
    Prop :=
  ∃ earlier last later between, statements = earlier ++ last :: later ∧ last.name = name ∧
    name ∉ targets later ∧ evalStatements before earlier = (.ok (), between) ∧
    last.value.eval between = .ok value

theorem exists_last_of_mem_targets {statements : List Assignment} {name : String}
    (assigned : name ∈ targets statements) :
    ∃ earlier last later, statements = earlier ++ last :: later ∧ last.name = name ∧
      name ∉ targets later := by
  induction statements with
  | nil => contradiction
  | cons first rest induction =>
      by_cases again : name ∈ targets rest
      · rcases induction again with ⟨earlier, last, later, rfl, same, final⟩
        exact ⟨first :: earlier, last, later, rfl, same, final⟩
      · rcases List.mem_cons.mp assigned with same | member
        · exact ⟨[], first, rest, rfl, same.symm, again⟩
        · exact absurd member again

section RunThrough

variable {before after : Store} {statements : List Assignment}
  (evaluated : evalStatements before statements = (.ok (), after))
include evaluated

theorem exists_lastAssigns {name : String} (assigned : name ∈ targets statements) :
    ∃ value, LastAssigns before statements name value ∧ after.get? name = some value := by
  rcases exists_last_of_mem_targets assigned with ⟨earlier, last, later, rfl, rfl, final⟩
  rcases evalStatements_append_eq_ok_iff.mp evaluated with ⟨between, ran, behind⟩
  rcases evalStatements_cons_eq_ok_iff.mp behind with ⟨value, known, rest⟩
  refine ⟨value, ⟨earlier, last, later, between, rfl, rfl, final, ran, known⟩, ?_⟩
  have kept := get?_evalStatements_of_notMem (between.set last.name value) final
  rw [rest, Store.get?_set, if_pos rfl] at kept
  exact kept

theorem get?_of_notMem_targets {name : String} (unassigned : name ∉ targets statements) :
    after.get? name = before.get? name := by
  have kept := get?_evalStatements_of_notMem before unassigned
  rwa [evaluated] at kept

theorem mem_names_iff_of_evalStatements {name : String} :
    name ∈ after.names ↔ name ∈ before.names ∨ name ∈ targets statements := by
  rw [Store.mem_names_iff, Store.mem_names_iff]
  by_cases assigned : name ∈ targets statements
  · rcases exists_lastAssigns evaluated assigned with ⟨value, _, found⟩
    simp [assigned, found]
  · simp [assigned, get?_of_notMem_targets evaluated assigned]

/-- Every statement is evaluated, in a store that has all it reads. -/
theorem exists_store_of_statement {earlier later : List Assignment} {statement : Assignment}
    (split : statements = earlier ++ statement :: later) :
    ∃ between, evalStatements before earlier = (.ok (), between) ∧
      ∀ name ∈ statement.value.names, name ∈ between.names := by
  rw [split] at evaluated
  rcases evalStatements_append_eq_ok_iff.mp evaluated with ⟨between, ran, behind⟩
  rcases evalStatements_cons_eq_ok_iff.mp behind with ⟨value, known, _⟩
  refine ⟨between, ran, ?_⟩
  intro name member
  exact Expression.mem_names_of_eval known member

end RunThrough

/-- A text that runs through is a program that is evaluated. -/
theorem exists_program_of_run {mode : Mode} {text : String} {before after : Store}
    (ran : (Run.ofText mode text before).result = .ok after) :
    ∃ program, parseText mode text = .ok program ∧
      evalStatements before program.statements = (.ok (), after) := by
  rcases exists_readTo_of_parse (TokenStream.ofText mode text) with
    ⟨read, rest, result, reading, stops, parsed⟩
  rcases (execute_eq_ok_iff reading stops).mp ran with ⟨rfl, evaluated⟩
  refine ⟨.ofStatements read, parsed, ?_⟩
  rw [Program.statements_ofStatements]
  exact evaluated

/-- A text that runs through is a program. Its targets join the names that had a value before.
Each of them has the value of its last assignment, all other names keep theirs, and whatever a
statement reads has a value by then. -/
theorem run_last_assignment_wins (mode : Mode) (text : String) (before after : Store)
    (ran : (Run.ofText mode text before).result = .ok after) :
    ∃ program, parseText mode text = .ok program ∧
      (∀ name, name ∈ after.names ↔
        name ∈ before.names ∨ name ∈ targets program.statements) ∧
      (∀ name ∈ targets program.statements,
        ∃ value, LastAssigns before program.statements name value ∧
          after.get? name = some value) ∧
      (∀ name, name ∉ targets program.statements → after.get? name = before.get? name) ∧
      (∀ earlier statement later, program.statements = earlier ++ statement :: later →
        ∃ between, evalStatements before earlier = (.ok (), between) ∧
          ∀ name ∈ statement.value.names, name ∈ between.names) := by
  rcases exists_readTo_of_parse (TokenStream.ofText mode text) with
    ⟨read, rest, result, reading, stops, parsed⟩
  rcases (execute_eq_ok_iff reading stops).mp ran with ⟨rfl, evaluated⟩
  refine ⟨.ofStatements read, parsed, ?_⟩
  rw [Program.statements_ofStatements]
  refine ⟨fun name => mem_names_iff_of_evalStatements evaluated, ?_, ?_, ?_⟩
  · intro name assigned
    exact exists_lastAssigns evaluated assigned
  · intro name unassigned
    exact get?_of_notMem_targets evaluated unassigned
  · intro earlier statement later split
    exact exists_store_of_statement evaluated split

/-- A variable that is assigned again, from what it was and from one that had a value before. -/
def reassigning : String := "x = 2; y = x * z; x = y - x;"

theorem run_last_assignment_wins_reassigning :
    ∃ program after,
      (Run.ofText .strict reassigning (Store.empty.set "z" 5)).result = .ok after ∧
      parseText .strict reassigning = .ok program ∧
      targets program.statements = ["x", "y", "x"] ∧
      (∀ name, name ∈ after.names ↔ name ∈ ["z"] ∨ name ∈ ["x", "y", "x"]) ∧
      LastAssigns (Store.empty.set "z" 5) program.statements "x" 8 ∧
      after.get? "x" = some 8 ∧ after.get? "z" = some 5 := by
  have ran : (Run.ofText .strict reassigning (Store.empty.set "z" 5)).result =
      .ok (((Store.empty.set "z" 5).set "y" 10).set "x" 8) := by decide +kernel
  have assigned : (parseText .strict reassigning).map (fun program =>
      targets program.statements) = .ok ["x", "y", "x"] := by decide +kernel
  rcases run_last_assignment_wins _ _ _ _ ran with ⟨program, parsed, names, last, kept, _⟩
  rw [parsed, Except.map, Except.ok.injEq] at assigned
  rw [assigned] at names last kept
  rcases last "x" (by decide) with ⟨value, assigns, found⟩
  have final : value = 8 := Option.some.inj (found.symm.trans (by decide +kernel))
  rw [final] at assigns found
  exact ⟨program, _, ran, parsed, assigned, names, assigns, found, kept "z" (by decide)⟩

end Abacus
