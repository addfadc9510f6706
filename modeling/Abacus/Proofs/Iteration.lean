import Abacus.Proofs.Places

/-! # Statement by statement

A parser can be asked for one statement after the other. It gives the statements of the whole
program, or those before its first error and then that error. An error is the last thing that it
gives: whatever it is asked to do afterwards, it has no statement any more. -/

namespace Abacus

open Grammar

namespace Parser

/-! ## One answer -/

theorem next?_of_not_hasStatement {parser : Parser} (finished : parser.hasStatement = false) :
    parser.next? = (none, parser) := by
  rw [next?, if_neg (by simp [finished])]

theorem next?_of_done {parser : Parser} {statement : Assignment} {rest : List Lexeme} {shorter}
    (due : parser.hasStatement = true)
    (read : assignment parser.remaining = .done statement rest shorter) :
    parser.next? = (some (.ok statement), { parser with remaining := rest }) := by
  rw [next?, if_pos due, Parser.read, read]
  rfl

theorem next?_of_failed {parser : Parser} {error : SyntaxError} {rest : List Lexeme}
    (due : parser.hasStatement = true) (failed : assignment parser.remaining = .failed error rest) :
    parser.next? = (some (.error error), ⟨rest, true⟩) := by
  rw [next?, if_pos due, Parser.read, failed]
  rfl

/-- A parser that is asked for a statement has none to give, gives one and goes on behind it, or
gives an error and has failed. -/
theorem next?_cases (parser : Parser) :
    (parser.hasStatement = false ∧ parser.next? = (none, parser)) ∨
    (∃ statement rest, parser.hasStatement = true ∧ rest.length < parser.remaining.length ∧
      parser.next? = (some (.ok statement), { parser with remaining := rest })) ∨
    (∃ error rest, parser.hasStatement = true ∧
      parser.next? = (some (.error error), ⟨rest, true⟩)) := by
  cases due : parser.hasStatement with
  | false => exact .inl ⟨rfl, next?_of_not_hasStatement due⟩
  | true =>
      cases outcome : assignment parser.remaining with
      | done statement rest shorter =>
          exact .inr (.inl ⟨statement, rest, rfl, shorter, next?_of_done due outcome⟩)
      | failed error rest => exact .inr (.inr ⟨error, rest, rfl, next?_of_failed due outcome⟩)

theorem hasStatement_of_failed {parser : Parser} (failed : parser.failed = true) :
    parser.hasStatement = false := by
  simp [hasStatement, failed]

theorem failed_of_hasStatement {parser : Parser} (due : parser.hasStatement = true) :
    parser.failed = false := by
  rw [hasStatement, Bool.and_eq_true, Bool.not_eq_true'] at due
  exact due.1

/-! ## All answers -/

/-- A bound for how often a parser gives something. -/
def patience (parser : Parser) : Nat :=
  if parser.failed then 0 else parser.remaining.length + 1

theorem patience_next?_lt {parser after : Parser} {item : Except SyntaxError Assignment}
    (asked : parser.next? = (some item, after)) : after.patience < parser.patience := by
  rcases next?_cases parser with
    ⟨_, nothing⟩ | ⟨statement, rest, due, shorter, given⟩ | ⟨error, rest, due, given⟩
  · cases asked.symm.trans nothing
  · cases asked.symm.trans given
    simp only [patience, failed_of_hasStatement due, Bool.false_eq_true, if_false]
    omega
  · cases asked.symm.trans given
    simp only [patience, failed_of_hasStatement due, Bool.false_eq_true, if_false, if_true]
    omega

/-- What a parser gives when it is asked for one statement after the other, until it gives
nothing. -/
def items (parser : Parser) : List (Except SyntaxError Assignment) :=
  match _asked : parser.next? with
  | (none, _) => []
  | (some item, after) => item :: after.items
termination_by parser.patience
decreasing_by exact patience_next?_lt _asked

theorem items_of_none {parser after : Parser} (asked : parser.next? = (none, after)) :
    parser.items = [] := by
  rw [items.eq_def]
  split
  · rfl
  · next given => cases asked.symm.trans given

theorem items_of_some {parser after : Parser} {item : Except SyntaxError Assignment}
    (asked : parser.next? = (some item, after)) : parser.items = item :: after.items := by
  rw [items.eq_def]
  split
  · next nothing => cases asked.symm.trans nothing
  · next given =>
      cases asked.symm.trans given
      rfl

theorem items_of_not_hasStatement {parser : Parser} (finished : parser.hasStatement = false) :
    parser.items = [] :=
  items_of_none (next?_of_not_hasStatement finished)

/-- Asked any number of times, a parser answers with its items and then with nothing. -/
theorem answers_eq_items (count : Nat) (parser : Parser) :
    parser.answers count = (List.range count).map fun index => parser.items[index]? := by
  induction count generalizing parser with
  | zero => rfl
  | succ count induction =>
      rw [answers, induction, List.range_succ_eq_map, List.map_cons, List.map_map]
      rcases next?_cases parser with
        ⟨_, nothing⟩ | ⟨statement, rest, _, _, given⟩ | ⟨error, rest, _, given⟩
      · rw [nothing, items_of_none nothing]
        rfl
      · rw [given, items_of_some given]
        rfl
      · rw [given, items_of_some given]
        rfl

/-! ## The whole program -/

theorem items_of_readTo {input rest : List Lexeme} {read : List Assignment}
    (reading : ReadTo input read rest) :
    items ⟨input, false⟩ = read.map .ok ++ items ⟨rest, false⟩ := by
  induction reading with
  | nil => rfl
  | cons due read further induction =>
      rcases read with ⟨shorter, equal⟩
      rename_i input first middle later rest
      have given : next? ⟨input, false⟩ = (some (.ok first), ⟨middle, false⟩) :=
        next?_of_done due equal
      rw [items_of_some given, induction, List.map_cons, List.cons_append]

theorem items_of_stopsWith {rest : List Lexeme} {result : Except SyntaxError Unit}
    (stops : StopsWith rest result) :
    items ⟨rest, false⟩ =
      match result with
      | .ok () => []
      | .error error => [.error error] := by
  cases stops with
  | finished finished => exact items_of_not_hasStatement finished
  | failed due failed =>
      rename_i error left
      have given : next? ⟨rest, false⟩ = (some (.error error), ⟨left, true⟩) :=
        next?_of_failed due failed
      rw [items_of_some given, items_of_not_hasStatement rfl]

section Streams

variable {stream : TokenStream}

/-- The statements that were read are given as they are, and what ended the reading comes last. -/
theorem items_start {rest : List Lexeme} {read : List Assignment}
    {result : Except SyntaxError Unit} (reading : ReadTo stream.lexemes read rest)
    (stops : StopsWith rest result) :
    (start stream).items =
      read.map .ok ++
        match result with
        | .ok () => []
        | .error error => [.error error] :=
  (items_of_readTo reading).trans (congrArg _ (items_of_stopsWith stops))

theorem items_of_parse_ok {program : Program} (parsed : parse stream = .ok program) :
    (start stream).items = program.statements.map .ok := by
  rcases exists_readTo_of_parse stream with ⟨read, rest, result, reading, stops, equal⟩
  rw [equal] at parsed
  cases result with
  | error error => contradiction
  | ok done =>
      cases parsed
      rw [items_start reading stops, Program.statements_ofStatements, List.append_nil]

theorem items_of_parse_error {error : SyntaxError} (unread : parse stream = .error error) :
    ∃ read : List Assignment, (start stream).items = read.map .ok ++ [.error error] := by
  rcases exists_readTo_of_parse stream with ⟨read, rest, result, reading, stops, equal⟩
  rw [equal] at unread
  cases result with
  | ok done => contradiction
  | error cause =>
      cases unread
      exact ⟨read, items_start reading stops⟩

end Streams

theorem mapM_ok_append (values : List Assignment) (later : List (Except SyntaxError Assignment)) :
    (values.map Except.ok ++ later).mapM id = (later.mapM id).map (values ++ ·) := by
  induction values with
  | nil =>
      rw [List.map_nil, List.nil_append]
      cases later.mapM id <;> rfl
  | cons value values induction =>
      rw [List.map_cons, List.cons_append, List.mapM_cons, induction]
      cases later.mapM id <;> rfl

/-- All that is given, or the first error instead, is what reading the whole program gives. -/
theorem collected_items (stream : TokenStream) :
    (start stream).items.mapM id = (parse stream).map Program.statements := by
  cases parsed : parse stream with
  | ok program =>
      have collected := mapM_ok_append program.statements []
      rw [List.append_nil] at collected
      rw [items_of_parse_ok parsed, collected]
      exact congrArg Except.ok (List.append_nil _)
  | error error =>
      rcases items_of_parse_error parsed with ⟨read, given⟩
      rw [given, mapM_ok_append]
      rfl

/-! ## After an error -/

/-- What a parser can be asked to do. -/
inductive Operation
  /-- To take the current token, which may be looked at or not. -/
  | advance
  | expect (token : Token)
  | expectName
  | next
  | program

def perform (parser : Parser) : Operation → Parser
  | .advance => parser.advance.2
  | .expect token => (parser.read (Grammar.expect token)).2
  | .expectName => (parser.read Grammar.expectName).2
  | .next => parser.next?.2
  | .program => parser.program.2

def performAll (parser : Parser) (operations : List Operation) : Parser :=
  operations.foldl perform parser

theorem failed_perform {parser : Parser} (failed : parser.failed = true) (operation : Operation) :
    (parser.perform operation).failed = true := by
  cases operation with
  | advance => exact failed
  | expect token => exact failed
  | expectName => exact failed
  | next =>
      rw [perform, next?_of_not_hasStatement (hasStatement_of_failed failed)]
      exact failed
  | program =>
      rw [perform, program, readProgram, if_pos failed]
      exact failed

theorem failed_performAll {parser : Parser} (failed : parser.failed = true)
    (operations : List Operation) : (parser.performAll operations).failed = true := by
  induction operations generalizing parser with
  | nil => exact failed
  | cons operation operations induction => exact induction (failed_perform failed operation)

theorem failed_of_next?_error {parser : Parser} {error : SyntaxError}
    (asked : parser.next?.1 = some (.error error)) : parser.next?.2.failed = true := by
  rcases next?_cases parser with
    ⟨_, nothing⟩ | ⟨statement, rest, _, _, given⟩ | ⟨cause, rest, _, given⟩
  · rw [nothing] at asked
    contradiction
  · rw [given] at asked
    cases asked
  · rw [given]

theorem failed_of_program_error {parser : Parser} {error : SyntaxError}
    (asked : parser.program.1 = .error error) : parser.program.2.failed = true := by
  rw [program] at asked ⊢
  generalize parser.readProgram = step at asked ⊢
  rcases step with ⟨result, after⟩
  cases result with
  | ok program => cases asked
  | error cause => rfl

end Parser

/-- Asked for statement after statement, a parser gives those of the whole program, or those before
its first error and then that error, and nothing behind these. After an error of a statement or of
a program it has no statement any more, whatever else it is asked to do. -/
theorem items_agree_with_parse :
    (∀ stream : TokenStream,
      (Parser.start stream).items.mapM id = (parse stream).map Program.statements ∧
      (∀ program, parse stream = .ok program →
        (Parser.start stream).items = program.statements.map .ok) ∧
      (∀ error, parse stream = .error error →
        ∃ read : List Assignment,
          (Parser.start stream).items = read.map .ok ++ [.error error]) ∧
      ∀ count, (Parser.start stream).answers count =
        (List.range count).map fun index => (Parser.start stream).items[index]?) ∧
    (∀ (parser after : Parser) (error : SyntaxError),
      parser.next? = (some (.error error), after) ∨ parser.program = (.error error, after) →
      ∀ operations, (after.performAll operations).hasStatement = false ∧
        (after.performAll operations).next?.1 = none) := by
  constructor
  · intro stream
    refine ⟨Parser.collected_items stream, ?_, ?_, ?_⟩
    · intro program parsed
      exact Parser.items_of_parse_ok parsed
    · intro error unread
      exact Parser.items_of_parse_error unread
    · intro count
      exact Parser.answers_eq_items count _
  · intro parser after error asked operations
    have failed : after.failed = true := by
      rcases asked with asked | asked
      · have failed := Parser.failed_of_next?_error (congrArg Prod.fst asked)
        rwa [asked] at failed
      · have failed := Parser.failed_of_program_error (congrArg Prod.fst asked)
        rwa [asked] at failed
    have done := Parser.hasStatement_of_failed (Parser.failed_performAll failed operations)
    exact ⟨done, congrArg Prod.fst (Parser.next?_of_not_hasStatement done)⟩

/-- Behind the statement without a value there is one that could be read. -/
def valueless : TokenStream := .ofText .strict "x = 1; y = ; z = 2;"

/-- The semicolon that stands where a value is due. -/
def missingValue : SyntaxError := ⟨.unexpected .semicolon factorStarts, ⟨11, 12⟩⟩

theorem items_agree_with_parse_valueless :
    parse valueless = .error missingValue ∧
    (∃ read : List Assignment,
      (Parser.start valueless).items = read.map .ok ++ [.error missingValue]) ∧
    (∃ program, parse (.ofText .strict "x = 1; y = x;") = .ok program ∧
      (Parser.start (.ofText .strict "x = 1; y = x;")).items = program.statements.map .ok) ∧
    ∃ after, (Parser.start valueless).program = (.error missingValue, after) ∧
      after.remaining.length = 6 ∧
      (after.performAll [.advance, .next, .expectName, .expect .equals, .program]).hasStatement =
        false ∧
      (after.performAll [.advance, .next, .expectName, .expect .equals, .program]).next?.1 =
        none := by
  have unread : parse valueless = .error missingValue := by decide +kernel
  have failed : (Parser.start valueless).program = (.error missingValue,
      ⟨valueless.lexemes.drop 6, true⟩) := by decide +kernel
  have parsed : parse (.ofText .strict "x = 1; y = x;") = .ok ⟨
      [⟨"x", ⟨0, 1⟩, .integer 1 ⟨4, 5⟩, ⟨0, 6⟩⟩,
        ⟨"y", ⟨7, 8⟩, .identifier "x" ⟨11, 12⟩, ⟨7, 13⟩⟩], ⟨0, 13⟩⟩ := by decide +kernel
  rcases items_agree_with_parse with ⟨streams, finished⟩
  refine ⟨unread, (streams valueless).2.2.1 _ unread, ⟨_, parsed, (streams _).2.1 _ parsed⟩, _,
    failed, by decide +kernel, ?_⟩
  exact finished _ _ _ (.inr failed) _

end Abacus
