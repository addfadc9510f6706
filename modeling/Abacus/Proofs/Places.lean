import Abacus.Proofs.Concatenation

/-! # Places are for reports only

Nothing is decided by where a token stands. The same tokens are read to the same trees or to the
same error, by a parser that reads the whole program and by one that is asked for statement after
statement, and the same trees have the same values and effects, all up to places. -/

namespace Abacus

open Grammar

/-! ## Parsers -/

namespace Relocation

variable (relocation : Relocation)

def parser (parser : Parser) : Parser :=
  { parser with remaining := parser.remaining.map relocation.lexeme }

/-- What was read, or the error instead, at its new place. -/
def reading (value : α → β) (result : Except SyntaxError α) : Except SyntaxError β :=
  (result.map value).mapError relocation.syntaxError

end Relocation

namespace Parser

/-- What a parser answers when it is asked for the next statement a number of times. -/
def answers : Nat → Parser → List (Option (Except SyntaxError Assignment))
  | 0, _ => []
  | count + 1, parser => parser.next?.1 :: answers count parser.next?.2

section Relocated

variable (relocation : Relocation)

theorem hasStatement_relocated (parser : Parser) :
    (relocation.parser parser).hasStatement = parser.hasStatement := by
  simp only [hasStatement, Relocation.parser, Grammar.hasStatement_relocated]

theorem next?_relocated (parser : Parser) :
    (relocation.parser parser).next? =
      (parser.next?.1.map (relocation.reading relocation.assignment),
        relocation.parser parser.next?.2) := by
  simp only [next?, hasStatement_relocated]
  split
  · simp only [read, Relocation.parser, assignment_relocated]
    cases assignment parser.remaining with
    | done statement rest shorter => rfl
    | failed error rest => rfl
  · rfl

theorem answers_relocated (count : Nat) (parser : Parser) :
    (relocation.parser parser).answers count =
      (parser.answers count).map (Option.map (relocation.reading relocation.assignment)) := by
  induction count generalizing parser with
  | zero => rfl
  | succ count induction =>
      rw [answers, answers, next?_relocated, induction, List.map_cons]

end Relocated

theorem start_erased_eq {first second : TokenStream} (same : first.tokens = second.tokens) :
    Relocation.erase.parser (start first) = Relocation.erase.parser (start second) := by
  simp only [Relocation.parser, start]
  rw [Relocation.erased_eq_of_tokens_eq same]

end Parser

/-! ## Programs -/

theorem Program.ofStatements_erased (statements : List Assignment) :
    Relocation.erase.program (ofStatements statements) =
      ofStatements (statements.map Relocation.erase.assignment) := by
  simp only [ofStatements, List.head?_map, List.getLast?_map]
  cases statements.head? with
  | none => rfl
  | some first =>
      cases statements.getLast? with
      | none => rfl
      | some last => rfl

theorem parse_erased (stream : TokenStream) :
    Relocation.erase.reading Relocation.erase.program (parse stream) =
      (statements (stream.lexemes.map Relocation.erase.lexeme)).2.1.map fun _ =>
        .ofStatements (statements (stream.lexemes.map Relocation.erase.lexeme)).1 := by
  rw [parse_eq, statements_relocated]
  cases (statements stream.lexemes).2.1 with
  | error error => rfl
  | ok done => exact congrArg Except.ok (Program.ofStatements_erased _)

/-- Tokens of a program are those of the same program at all places. -/
theorem exists_parse_of_tokens_eq {first second : TokenStream} {program : Program}
    (same : first.tokens = second.tokens) (parsed : parse second = .ok program) :
    ∃ other, parse first = .ok other ∧
      Relocation.erase.program other = Relocation.erase.program program := by
  have erased := parse_erased first
  rw [Relocation.erased_eq_of_tokens_eq same, ← parse_erased, parsed] at erased
  cases read : parse first with
  | error error =>
      rw [read] at erased
      contradiction
  | ok other =>
      rw [read] at erased
      exact ⟨other, rfl, Except.ok.inj erased⟩

theorem Program.eval_erased (program : Program) (store : Store) :
    (Relocation.erase.program program).eval store =
      ((program.eval store).1.mapError Relocation.erase.evalError, (program.eval store).2) :=
  evalStatements_relocated .erase store program.statements

theorem Run.result_erased (mode : Mode) (text : String) (store : Store) (source : Source) :
    (ofText mode text store).result.mapError (Relocation.erase.failure source) =
      execute source store
        ((TokenStream.ofText mode text).lexemes.map Relocation.erase.lexeme) :=
  (execute_relocated .erase _ source (TokenStream.closed_ofItems _) store).symm

/-- Neither the parser nor the evaluator decides anything by places. The same tokens give the same
trees or the same error, to a parser of whole programs and to one that is asked statement by
statement. Trees that are equal up to places have the same values, and they leave the same stores
or fail for the same cause. So texts of the same tokens run to the same end. -/
theorem places_decide_nothing :
    (∀ first second : TokenStream, first.tokens = second.tokens →
      Relocation.erase.reading Relocation.erase.program (parse first) =
        Relocation.erase.reading Relocation.erase.program (parse second) ∧
      ∀ count, ((Parser.start first).answers count).map
          (Option.map (Relocation.erase.reading Relocation.erase.assignment)) =
        ((Parser.start second).answers count).map
          (Option.map (Relocation.erase.reading Relocation.erase.assignment))) ∧
    (∀ first second : Expression,
      Relocation.erase.expression first = Relocation.erase.expression second → ∀ store,
      (first.eval store).mapError Relocation.erase.evalError =
        (second.eval store).mapError Relocation.erase.evalError) ∧
    (∀ first second : Program,
      Relocation.erase.program first = Relocation.erase.program second → ∀ store,
      (first.eval store).1.mapError Relocation.erase.evalError =
        (second.eval store).1.mapError Relocation.erase.evalError ∧
      (first.eval store).2 = (second.eval store).2) ∧
    (∀ firstMode secondMode first second,
      (TokenStream.ofText firstMode first).tokens =
        (TokenStream.ofText secondMode second).tokens → ∀ store source,
      (Run.ofText firstMode first store).result.mapError (Relocation.erase.failure source) =
        (Run.ofText secondMode second store).result.mapError
          (Relocation.erase.failure source)) := by
  refine ⟨?_, ?_, ?_, ?_⟩
  · intro first second same
    constructor
    · rw [parse_erased, parse_erased, Relocation.erased_eq_of_tokens_eq same]
    · intro count
      rw [← Parser.answers_relocated, ← Parser.answers_relocated, Parser.start_erased_eq same]
  · intro first second same store
    rw [← Expression.eval_relocated, ← Expression.eval_relocated, same]
  · intro first second same store
    have evaluated := congrArg (Program.eval · store) same
    simp only [Program.eval_erased, Prod.mk.injEq] at evaluated
    exact evaluated
  · intro firstMode secondMode first second same store source
    rw [Run.result_erased, Run.result_erased, Relocation.erased_eq_of_tokens_eq same]

/-! One program close together and spread out, and its second statement at both places. -/

def together : String := "x=1;y=x*q;"

def spread : String := "x = 1 ; #\ny = x\t* q;"

def laterTogether : Program :=
  ⟨[⟨"y", ⟨4, 5⟩, .binary .star (.identifier "x" ⟨6, 7⟩) (.identifier "q" ⟨8, 9⟩) ⟨6, 9⟩,
    ⟨4, 10⟩⟩], ⟨4, 10⟩⟩

def laterSpread : Program :=
  ⟨[⟨"y", ⟨10, 11⟩, .binary .star (.identifier "x" ⟨14, 15⟩) (.identifier "q" ⟨18, 19⟩) ⟨14, 19⟩,
    ⟨10, 20⟩⟩], ⟨10, 20⟩⟩

theorem places_decide_nothing_spread :
    (TokenStream.ofText .strict together).tokens =
      (TokenStream.ofText .permissive spread).tokens ∧
    Relocation.erase.reading Relocation.erase.program (parseText .strict together) =
      Relocation.erase.reading Relocation.erase.program (parseText .permissive spread) ∧
    (∀ store, ((Expression.identifier "q" ⟨8, 9⟩).eval store).mapError
        Relocation.erase.evalError =
      ((Expression.identifier "q" ⟨18, 19⟩).eval store).mapError Relocation.erase.evalError) ∧
    Relocation.erase.program laterTogether = Relocation.erase.program laterSpread ∧
    (∀ store, (laterTogether.eval store).2 = (laterSpread.eval store).2) ∧
    (Run.ofText .strict together .empty).result =
      .error (.evaluation ⟨"<input>", together⟩ ⟨.undefinedVariable "q", ⟨8, 9⟩⟩) ∧
    (Run.ofText .permissive spread .empty).result =
      .error (.evaluation ⟨"<input>", spread⟩ ⟨.undefinedVariable "q", ⟨18, 19⟩⟩) ∧
    ∀ store source,
      (Run.ofText .strict together store).result.mapError (Relocation.erase.failure source) =
        (Run.ofText .permissive spread store).result.mapError
          (Relocation.erase.failure source) := by
  have same : (TokenStream.ofText .strict together).tokens =
      (TokenStream.ofText .permissive spread).tokens := by decide +kernel
  have sameTrees : Relocation.erase.program laterTogether =
      Relocation.erase.program laterSpread := by decide
  rcases places_decide_nothing with ⟨readings, values, effects, runs⟩
  exact ⟨same, (readings _ _ same).1, values _ _ rfl, sameTrees,
    fun store => (effects _ _ sameTrees store).2, by decide +kernel, by decide +kernel,
    runs _ _ _ _ same⟩

end Abacus
