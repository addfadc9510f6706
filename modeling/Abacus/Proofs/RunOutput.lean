import Abacus.Console
import Abacus.Proofs.Documents
import Abacus.Proofs.FirstFailure
import Abacus.Proofs.Rejection

/-! # What a run writes

The standard output of a run is the whole listing of its variables, or one line about the first
statement that fails. Which line it is depends on where that statement fails: at its first token,
at a variable without a value, or anywhere else. -/

namespace Abacus

open Grammar Text.Utf8

namespace Failure

/-- A failing node is a variable, or an operation whose result does not fit. -/
theorem summary_eq_or_identifier {source : Source} {store : Store} {node : Expression}
    (fails : node.fails store = true) :
    (evaluation source node.failure).summary = "Error" ∨
      ∃ name span, node = .identifier name span := by
  cases node with
  | identifier name span => exact .inr ⟨name, span, rfl⟩
  | integer value span => contradiction
  | unary operator operand span => exact .inl rfl
  | binary operator left right span => exact .inl rfl
  | nested inner span => contradiction

theorem summary_of_cause_ne {source : Source} {error : SyntaxError}
    (named : ∀ token, error.cause ≠ .notAnAssignment token) :
    (parsing source error).summary = "Error" := by
  rcases error with ⟨cause, span⟩
  cases cause with
  | notAnAssignment found => exact absurd rfl (named found)
  | _ => rfl

end Failure

/-- A variable that fails is a token of the text, so its name is one. -/
theorem isName_of_firstFailure? {mode : Mode} {text : String} {front rest : List Lexeme}
    {statement : Derivation.Statement}
    (split : (TokenStream.ofText mode text).lexemes = front ++ (statement.lexemes ++ rest))
    {store : Store} {name : String} {span : Span}
    (first : statement.value.tree.firstFailure? store = some (.identifier name span)) :
    isName name = true := by
  have token := statement.value.mem_lexemes_of_identifier (List.mem_of_find?_eq_some first)
  have member : ⟨.ident name, span⟩ ∈ (TokenStream.ofText mode text).lexemes := by
    rw [split, Derivation.Statement.lexemes]
    simp [token]
  exact isSpelled_of_mem_ofText member Token.noConfusion Token.noConfusion

namespace Document

variable {mode : Mode} {document : Document} {path : String}

/-- The document holds a text that is read, and evaluated from nothing to the store. -/
def Yields (mode : Mode) (document : Document) (store : Store) : Prop :=
  ∃ text program, document = .file (encode text) ∧ parseText mode text = .ok program ∧
    program.eval .empty = (.ok (), store)

/-- The first statements of the document are read and evaluated to the store, and the rest of its
tokens follows them. -/
def Reaches (mode : Mode) (document : Document) (store : Store) (rest : List Lexeme) : Prop :=
  ∃ text statements, document = .file (encode text) ∧
    (TokenStream.ofText mode text).lexemes = Derivation.programLexemes statements ++ rest ∧
    evalStatements .empty (statements.map Derivation.Statement.tree) = (.ok (), store)

/-- The first failing statement starts with a token that is not a name. -/
def StartsWithoutName (mode : Mode) (document : Document) : Prop :=
  ∃ store first rest, document.Reaches mode store (first :: rest) ∧ first.token ≠ .eof ∧
    ∀ name, first.token ≠ .ident name

/-- The first failing statement is read, and its first failing node is the variable. -/
def ReadsUnbound (mode : Mode) (document : Document) (name : String) : Prop :=
  ∃ store statement rest span, document.Reaches mode store
      (Derivation.Statement.lexemes statement ++ rest) ∧
    statement.value.tree.firstFailure? store = some (.identifier name span)

/-! ## Runs of documents -/

theorem result_interpret_encode (mode : Mode) (path text : String) :
    ((file (encode text)).interpret mode path).result =
      execute ⟨path, text⟩ .empty (TokenStream.ofText mode text).lexemes := by
  rw [interpret, read, readBytes_encode]
  rfl

theorem encodes_or_inaccessible (mode : Mode) (path : String) (document : Document) :
    (∃ text, document = .file (encode text)) ∨
      ∃ fault, (document.interpret mode path).result = .error (.access fault) := by
  cases document with
  | unreadable fault => exact .inr ⟨fault, rfl⟩
  | file bytes =>
      rcases readBytes_cases mode bytes with ⟨text, rfl, _⟩ | ⟨_, fault, failed⟩
      · exact .inl ⟨text, rfl⟩
      · refine .inr ⟨.ofEncoding fault, ?_⟩
        rw [interpret, read, failed]

/-- A run goes on from wherever the document reaches. -/
theorem Reaches.exists_execute {store : Store} {rest : List Lexeme}
    (reaches : document.Reaches mode store rest) (path : String) :
    ∃ source, (document.interpret mode path).result = execute source store rest := by
  rcases reaches with ⟨text, statements, rfl, split, evaluated⟩
  refine ⟨⟨path, text⟩, ?_⟩
  rw [result_interpret_encode, split, execute_of_readTo _ (readTo_programLexemes statements rest),
    evaluated]

theorem Reaches.closed {store : Store} {rest : List Lexeme}
    (reaches : document.Reaches mode store rest) : Closed rest := by
  rcases reaches with ⟨text, statements, rfl, split, evaluated⟩
  have closed : Closed (TokenStream.ofText mode text).lexemes := TokenStream.closed_ofItems _
  rw [split] at closed
  exact closed.of_append fun lexeme member =>
    (Derivation.program_token_ne statements lexeme member).1

theorem result_of_yields {store : Store} (yields : document.Yields mode store) :
    (document.interpret mode path).result = .ok store := by
  rcases yields with ⟨text, program, rfl, parsed, evaluated⟩
  rcases exists_readTo_of_parse (TokenStream.ofText mode text) with
    ⟨read, rest, result, reading, stops, sameParse⟩
  rw [result_interpret_encode, execute_eq_ok_iff reading stops]
  rw [parseText, sameParse] at parsed
  cases result with
  | error error => contradiction
  | ok done =>
      cases parsed
      rw [Program.eval, Program.statements_ofStatements] at evaluated
      exact ⟨rfl, evaluated⟩

theorem yields_of_result {store : Store}
    (ran : (document.interpret mode path).result = .ok store) : document.Yields mode store := by
  rcases encodes_or_inaccessible mode path document with ⟨text, rfl⟩ | ⟨fault, failed⟩
  · rcases exists_readTo_of_parse (TokenStream.ofText mode text) with
      ⟨read, rest, result, reading, stops, parsed⟩
    rw [result_interpret_encode, execute_eq_ok_iff reading stops] at ran
    rcases ran with ⟨rfl, evaluated⟩
    refine ⟨text, .ofStatements read, rfl, parsed, ?_⟩
    rw [Program.eval, Program.statements_ofStatements, evaluated]
  · cases ran.symm.trans failed

theorem exists_failure (path : String) (yieldsNothing : ∀ store, ¬ document.Yields mode store) :
    ∃ failure, (document.interpret mode path).result = .error failure := by
  cases ran : (document.interpret mode path).result with
  | ok store => exact absurd (yields_of_result ran) (yieldsNothing store)
  | error failure => exact ⟨failure, rfl⟩

/-! ## Failing statements -/

theorem StartsWithoutName.exists_failure (nameless : document.StartsWithoutName mode)
    (path : String) :
    ∃ failure, (document.interpret mode path).result = .error failure ∧
      failure.summary = "Not a valid program" := by
  rcases nameless with ⟨store, first, rest, reaches, notEnd, nameless⟩
  rcases reaches.exists_execute path with ⟨source, ran⟩
  -- If no statement were due, the token would be the end of the source.
  have due : hasStatement (first :: rest) = true := by
    rw [← Bool.not_eq_false]
    intro finished
    rcases reaches.closed.eq_of_not_hasStatement finished with ⟨stop, equal⟩
    cases equal
    exact notEnd rfl
  rcases (stuckAt_name first nameless).rejects rest with ⟨left, unread⟩
  exact ⟨_, ran.trans (execute_of_failed source due unread store), rfl⟩

theorem ReadsUnbound.exists_failure {name : String} (unbound : document.ReadsUnbound mode name)
    (path : String) :
    ∃ failure, (document.interpret mode path).result = .error failure ∧
      failure.summary = "Variable " ++ name ++ " was not found." := by
  rcases unbound with ⟨store, statement, rest, span, reaches, first⟩
  rcases reaches.exists_execute path with ⟨source, ran⟩
  rcases assignment_lexemes statement rest with ⟨shorter, read⟩
  have undefined := Expression.eval_of_firstFailure? statement.value.isArithmetic_tree first
  rw [execute, if_pos (hasStatement_lexemes statement rest), read] at ran
  simp only [Assignment.eval, Derivation.Statement.tree, undefined] at ran
  exact ⟨_, ran, rfl⟩

theorem ReadsUnbound.isName {name : String} (unbound : document.ReadsUnbound mode name) :
    isName name = true := by
  rcases unbound with ⟨store, statement, rest, span, ⟨text, statements, _, split, _⟩, first⟩
  exact isName_of_firstFailure? split first

theorem summary_cases_of_evaluation {text : String} {source : Source} {error : EvalError}
    {derivation : List Derivation.Statement} {rest : List Lexeme}
    (split : (TokenStream.ofText mode text).lexemes = Derivation.programLexemes derivation ++ rest)
    (failed : (evalStatements .empty (derivation.map Derivation.Statement.tree)).1 =
      .error error) :
    (Failure.evaluation source error).summary = "Error" ∨
      ∃ name, (file (encode text)).ReadsUnbound mode name := by
  rcases exists_of_evalStatements_error failed with
    ⟨earlier, failing, later, store, equal, before, fails⟩
  -- The failing statement and those before it are trees of derived statements.
  rcases List.map_eq_append_iff.mp equal with ⟨first, behind, rfl, rfl, sameBehind⟩
  rcases List.map_eq_cons_iff.mp sameBehind with ⟨statement, more, rfl, rfl, rfl⟩
  rcases Expression.exists_firstFailure?_of_eval statement.value.isArithmetic_tree fails with
    ⟨node, found, rfl⟩
  rcases Failure.summary_eq_or_identifier (List.find?_some found) with summary | ⟨name, span, rfl⟩
  · exact .inl summary
  · refine .inr ⟨name, store, statement, Derivation.programLexemes more ++ rest, span,
      ⟨text, first, rfl, ?_, before⟩, found⟩
    rw [split]
    simp [Derivation.programLexemes]

theorem summary_cases_of_parsing {text : String} {source : Source} {error : SyntaxError}
    {store : Store} {rest left : List Lexeme}
    (reaches : (file (encode text)).Reaches mode store rest) (due : hasStatement rest = true)
    (failed : assignment rest = .failed error left) :
    (Failure.parsing source error).summary = "Error" ∨
      (file (encode text)).StartsWithoutName mode := by
  rcases reaches.closed.exists_cons with ⟨first, behind, rfl⟩
  by_cases named : ∃ name, first.token = .ident name
  · rcases first with ⟨_, span⟩
    rcases named with ⟨name, rfl⟩
    rcases exists_stuckAt_of_name reaches.closed failed with ⟨_, _, _, _, halts, _⟩
    exact .inl (Failure.summary_of_cause_ne halts.cause_ne)
  · refine .inr ⟨store, first, behind, reaches, ?_, not_exists.mp named⟩
    rcases reaches with ⟨_, statements, same, split, _⟩
    exact TokenStream.token_ne_eof split (by simpa [hasStatement] using due)

theorem summary_cases {failure : Failure}
    (failed : (document.interpret mode path).result = .error failure) :
    failure.summary = "Error" ∨ document.StartsWithoutName mode ∨
      ∃ name, document.ReadsUnbound mode name := by
  rcases encodes_or_inaccessible mode path document with ⟨text, rfl⟩ | ⟨fault, inaccessible⟩
  · rcases exists_readTo_of_parse (TokenStream.ofText mode text) with
      ⟨read, rest, result, reading, stops, _⟩
    rw [result_interpret_encode, execute_eq_error_iff reading stops] at failed
    rcases exists_derivation_of_readTo reading with ⟨derivation, split, rfl⟩
    rcases failed with ⟨error, failed, rfl⟩ | ⟨evaluated, error, rfl, rfl⟩
    · exact (summary_cases_of_evaluation split failed).imp_right .inr
    · cases stops with
      | failed due unread =>
          have reaches : (file (encode text)).Reaches mode _ rest :=
            ⟨text, derivation, rfl, split, Prod.ext evaluated rfl⟩
          exact (summary_cases_of_parsing reaches due unread).imp_right .inl
  · cases failed.symm.trans inaccessible
    exact .inl rfl

end Document

/-! ## Output -/

theorem Output.out_append (first second : Output) :
    (first ++ second).out = first.out ++ second.out := rfl

/-- The exit status, and all that is on the standard output. -/
def Completion.EndsWith (completion : Completion) (code : Nat) (out : String) : Prop :=
  completion.code = code ∧ completion.output.out = out

namespace Console

variable (path elapsed : String) {outcome : Run}

theorem run_of_ok {store : Store} (ran : outcome.result = .ok store) :
    (run path elapsed outcome).EndsWith 0 store.text := by
  simp [Completion.EndsWith, run, ran, completed, Completion.code, Output.out_append,
    warningsOutput]

theorem run_of_error {failure : Failure} (failed : outcome.result = .error failure) :
    (run path elapsed outcome).EndsWith 1 (failure.summary ++ "\n") := by
  simp [Completion.EndsWith, run, failed, Console.failed, failureOutput, Completion.code,
    Output.out_append, warningsOutput]

end Console

theorem newline_notMem_variableLine {name : String} (isName : isName name = true) :
    '\n' ∉ ("Variable " ++ name ++ " was not found.").toList := by
  have noNewline : '\n' ∉ name.toList := fun member =>
    absurd (isNamePart_of_isName isName '\n' member) (by decide)
  simp [noNewline]

theorem Document.newline_notMem_summary {mode : Mode} {document : Document} {path : String}
    {failure : Failure} (failed : (document.interpret mode path).result = .error failure) :
    '\n' ∉ failure.summary.toList := by
  rcases summary_cases failed with summary | nameless | ⟨name, unbound⟩
  · rw [summary]
    decide
  · rcases nameless.exists_failure path with ⟨other, same, summary⟩
    cases failed.symm.trans same
    rw [summary]
    decide
  · rcases unbound.exists_failure path with ⟨other, same, summary⟩
    cases failed.symm.trans same
    rw [summary]
    exact newline_notMem_variableLine unbound.isName

/-- A run that succeeds has exit status 0 and writes the listing of its store. Every other run
has exit status 1 and writes one line, which says where the first failing statement fails. -/
theorem perform_run_output (elapsed : String) (find : String → Document) (input : List UInt8)
    (path : String) (mode : Mode) :
    (∀ store, (find path).Yields mode store →
      (Console.perform elapsed find input (.run path mode)).EndsWith 0 store.text) ∧
    ((∀ store, ¬ (find path).Yields mode store) →
      ∃ line, (Console.perform elapsed find input (.run path mode)).EndsWith 1 (line ++ "\n") ∧
        '\n' ∉ line.toList) ∧
    ((find path).StartsWithoutName mode →
      (Console.perform elapsed find input (.run path mode)).EndsWith 1 "Not a valid program\n") ∧
    (∀ name, (find path).ReadsUnbound mode name →
      (Console.perform elapsed find input (.run path mode)).EndsWith 1
        ("Variable " ++ name ++ " was not found.\n")) ∧
    ((∀ store, ¬ (find path).Yields mode store) → ¬ (find path).StartsWithoutName mode →
      (∀ name, ¬ (find path).ReadsUnbound mode name) →
      (Console.perform elapsed find input (.run path mode)).EndsWith 1 "Error\n") := by
  refine ⟨fun store yields => ?_, fun yieldsNothing => ?_, fun nameless => ?_,
    fun name unbound => ?_, fun yieldsNothing named bound => ?_⟩
  · exact Console.run_of_ok path elapsed (Document.result_of_yields yields)
  · rcases Document.exists_failure path yieldsNothing with ⟨failure, failed⟩
    exact ⟨failure.summary, Console.run_of_error path elapsed failed,
      Document.newline_notMem_summary failed⟩
  · rcases nameless.exists_failure path with ⟨failure, failed, summary⟩
    have written := Console.run_of_error path elapsed failed
    rwa [summary] at written
  · rcases unbound.exists_failure path with ⟨failure, failed, summary⟩
    have written := Console.run_of_error path elapsed failed
    rwa [summary, String.append_assoc] at written
  · rcases Document.exists_failure path yieldsNothing with ⟨failure, failed⟩
    have written := Console.run_of_error path elapsed failed
    rcases Document.summary_cases failed with summary | nameless | ⟨name, unbound⟩
    · rwa [summary] at written
    · exact absurd nameless named
    · exact absurd unbound (bound name)

/-! Programs that begin with `x = 1;`. One of them goes on with `y = x * z;`. -/

def setsOne : Derivation.Statement :=
  ⟨"x", ⟨0, 1⟩, ⟨2, 3⟩, .term (.factor (.literal "1" ⟨4, 5⟩ 1 (by decide +kernel))), ⟨5, 6⟩⟩

def multiplies : Derivation.Statement :=
  ⟨"y", ⟨7, 8⟩, ⟨9, 10⟩,
    .term (.product (.identifier "x" ⟨11, 12⟩) ⟨13, 14⟩ (.factor (.identifier "z" ⟨15, 16⟩))),
    ⟨16, 17⟩⟩

def sampleDocuments : String → Document
  | "listed" => .file (encode "x = 1; a = -x;")
  | "nameless" => .file (encode "x = 1; 2 = x;")
  | "unbound" => .file (encode "x = 1; y = x * z; 2")
  | _ => .unreadable .notFound

theorem perform_run_output_sampleDocuments :
    ((sampleDocuments "listed").Yields .strict ((Store.empty.set "x" 1).set "a" (-1)) ∧
      (Console.perform "0.00s" sampleDocuments [] (.run "listed" .strict)).EndsWith 0
        "a = -1\nx = 1\n") ∧
    ((sampleDocuments "nameless").StartsWithoutName .strict ∧
      (Console.perform "0.00s" sampleDocuments [] (.run "nameless" .strict)).EndsWith 1
        "Not a valid program\n") ∧
    ((sampleDocuments "unbound").ReadsUnbound .strict "z" ∧
      (Console.perform "0.00s" sampleDocuments [] (.run "unbound" .strict)).EndsWith 1
        "Variable z was not found.\n") ∧
    (Console.perform "0.00s" sampleDocuments [] (.run "absent" .strict)).EndsWith 1 "Error\n" := by
  have listed : (sampleDocuments "listed").Yields .strict
      ((Store.empty.set "x" 1).set "a" (-1)) := by
    refine ⟨"x = 1; a = -x;", ⟨[setsOne.tree, ⟨"a", ⟨7, 8⟩,
      .unary .minus (.identifier "x" ⟨12, 13⟩) ⟨11, 13⟩, ⟨7, 14⟩⟩], ⟨0, 14⟩⟩, rfl, ?_, ?_⟩
    · decide +kernel
    · decide +kernel
  have nameless : (sampleDocuments "nameless").StartsWithoutName .strict := by
    refine ⟨Store.empty.set "x" 1, ⟨.int "2", ⟨7, 8⟩⟩,
      [⟨.equals, ⟨9, 10⟩⟩, ⟨.ident "x", ⟨11, 12⟩⟩, ⟨.semicolon, ⟨12, 13⟩⟩, ⟨.eof, ⟨13, 13⟩⟩],
      ⟨"x = 1; 2 = x;", [setsOne], rfl, ?_, ?_⟩, nofun, nofun⟩
    · decide +kernel
    · decide +kernel
  have unbound : (sampleDocuments "unbound").ReadsUnbound .strict "z" := by
    refine ⟨Store.empty.set "x" 1, multiplies, [⟨.int "2", ⟨18, 19⟩⟩, ⟨.eof, ⟨19, 19⟩⟩], ⟨15, 16⟩,
      ⟨"x = 1; y = x * z; 2", [setsOne], rfl, ?_, ?_⟩, ?_⟩
    · decide +kernel
    · decide +kernel
    · decide +kernel
  have yieldsNothing : ∀ store, ¬ (sampleDocuments "absent").Yields .strict store := nofun
  have noName : ¬ (sampleDocuments "absent").StartsWithoutName .strict := nofun
  have noVariable : ∀ name, ¬ (sampleDocuments "absent").ReadsUnbound .strict name := nofun
  exact ⟨⟨listed, (perform_run_output _ _ _ _ _).1 _ listed⟩,
    ⟨nameless, (perform_run_output _ _ _ _ _).2.2.1 nameless⟩,
    ⟨unbound, (perform_run_output _ _ _ _ _).2.2.2.1 _ unbound⟩,
    (perform_run_output _ _ _ _ _).2.2.2.2 yieldsNothing noName noVariable⟩

end Abacus
