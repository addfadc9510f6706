import Abacus.Proofs.FirstFailure
import Abacus.Proofs.Rejection
import Abacus.Proofs.TwoPhases

/-! # Branches that no text leads to

Some branches are there for states that reading and evaluating should never come to. There may be
no token to look at, or what is taken for an operator, a sign or a numeral may be none, or a binary
node may carry a token that joins nothing. Here each of these branches is a trap that ends
everything. The tokens of a text end with a token of their own that is never taken, so on them the
readers with traps give what the readers without them give. -/

namespace Abacus

open Grammar

/-- A branch for a state that should not come up. -/
inductive Breach
  /-- There is no token left, not even the end of the source. -/
  | noToken
  | noOperator (found : Lexeme)
  | noSign (found : Lexeme)
  | noLiteral (found : Lexeme)
  | notBinary (operator : Token)
deriving DecidableEq

/-! ## Readers with traps -/

namespace Guarded

def expect (token : Token) (input : List Lexeme) : Except Breach (Outcome Span input) :=
  match input with
  | [] => .error .noToken
  | first :: rest => .ok (Grammar.expect token (first :: rest))

def literal (input : List Lexeme) : Except Breach (Outcome Expression input) :=
  match input with
  | [] => .error .noToken
  | first :: rest =>
      match first.token with
      | .int _ => .ok (Grammar.literal (first :: rest))
      | _ => .error (.noLiteral first)

theorem length_lt_of_cons {operator : Lexeme} {final rest input : List Lexeme}
    (shorter : (operator :: rest).length < input.length) (further : final.length < rest.length) :
    final.length < input.length := by
  rw [List.length_cons] at shorter
  omega

/-- Puts two operands under the operator between them. -/
def underOperator (left : Expression) (operator : Lexeme)
    (shorter : (operator :: rest).length < input.length) :
    Outcome Expression rest → Outcome Expression input
  | .failed error rest => .failed error rest
  | .done right rest further =>
      .done (.binary operator.token left right (spanning left.span right.span)) rest
        (length_lt_of_cons shorter further)

/-! What reads an operand is an argument, as it is the reader of whole expressions. It is given
less than the whole input. -/

section Operands

variable {input : List Lexeme}
  (operand : (rest : List Lexeme) → rest.length < input.length →
    Except Breach (Outcome Expression rest))

/-- Takes an operator and what stands on its right. -/
def joined (left : Expression) (middle : List Lexeme) (shorter : middle.length < input.length) :
    Except Breach (Outcome Expression input) :=
  match middle with
  | [] => .error .noToken
  | operator :: rest =>
      if operator.token.isOperator then
        (operand rest (Nat.lt_of_succ_lt shorter)).map (underOperator left operator shorter)
      else .error (.noOperator operator)

/-- Looks behind the first operand for an operator of the layer. -/
def chain (layer : Layer) : Outcome Expression input → Except Breach (Outcome Expression input)
  | .failed error rest => .ok (.failed error rest)
  | .done _ [] _ => .error .noToken
  | .done left (next :: rest) shorter =>
      if layer.joins next.token then joined operand left (next :: rest) shorter
      else .ok (.done left (next :: rest) shorter)

end Operands

/-- Takes a sign and what stands under it. -/
def signed (input : List Lexeme)
    (operand : (rest : List Lexeme) → rest.length < input.length →
      Except Breach (Outcome Expression rest)) : Except Breach (Outcome Expression input) :=
  match input with
  | [] => .error .noToken
  | sign :: rest =>
      if sign.token.isSign then (operand rest (Nat.lt_succ_self _)).map (underSign sign)
      else .error (.noSign sign)

def expression (layer : Layer) (input : List Lexeme) : Except Breach (Outcome Expression input) :=
  match _operand : layer.operand? with
  | some tighter =>
      (expression tighter input).bind (chain (fun rest _ => expression layer rest) layer)
  | none =>
      match input with
      | [] => .error .noToken
      | first :: rest =>
          match first.token with
          | .leftParen => do
              match ← expression .sum rest with
              | .failed error rest => return .failed error rest
              | .done inner rest shorter =>
                  match ← expect .rightParen rest with
                  | .failed error rest => return .failed error rest
                  | .done closing rest further =>
                      return .done (.nested inner (spanning first.span closing)) rest
                        (by simp only [List.length_cons]; omega)
          | .int _ => literal (first :: rest)
          | .ident name => .ok (.done (.identifier name first.span) rest (by simp))
          | _ =>
              if first.token.isSign then
                match found : leastLiteral? (first :: rest) with
                | some (least, rest) => .ok (.done least rest (length_leastLiteral?_lt found))
                | none => signed (first :: rest) fun rest _ => expression .factor rest
              else .ok (.failed (.unexpected first factorStarts) (first :: rest))
termination_by 3 * input.length + layer.depth
decreasing_by
  · have := Layer.depth_operand?_lt _operand
    omega
  · omega
  · simp only [List.length_cons, Layer.depth]
    omega
  · simp only [Layer.depth]
    omega

def assignment (input : List Lexeme) : Except Breach (Outcome Assignment input) :=
  match input with
  | [] => .error .noToken
  | first :: rest =>
      match first.token with
      | .ident name => do
          match ← expect .equals rest with
          | .failed error rest => return .failed error rest
          | .done _ rest afterEquals =>
              match ← expression .sum rest with
              | .failed error rest => return .failed error rest
              | .done value rest afterValue =>
                  match ← expect .semicolon rest with
                  | .failed error rest => return .failed error rest
                  | .done closing rest afterClosing =>
                      return .done ⟨name, first.span, value, spanning first.span closing⟩ rest
                        (by simp only [List.length_cons]; omega)
      | token => .ok (.failed ⟨.notAnAssignment token, first.span⟩ (first :: rest))

/-- Tokens that do not end as a stream does lead into a trap. -/
example : assignment [⟨.ident "x", ⟨0, 1⟩⟩] = .error .noToken := rfl

def statements (input : List Lexeme) :
    Except Breach (List Assignment × Except SyntaxError Unit × List Lexeme) :=
  if hasStatement input then do
    match ← assignment input with
    | .failed error rest => return ([], .error error, rest)
    | .done first rest _ =>
        let (further, result, left) ← statements rest
        return (first :: further, result, left)
  else .ok ([], .ok (), input)
termination_by input.length

/-- What the parser of a stream reads, and the parser afterwards. -/
def program (stream : TokenStream) : Except Breach (Except SyntaxError Program × Parser) :=
  (statements stream.lexemes).map fun (read, result, rest) =>
    Parser.sealed (result.map fun _ => .ofStatements read, ⟨rest, false⟩)

def eval (store : Store) (assignment : Assignment) : Except Breach (Except EvalError Store) :=
  match assignment.eval store with
  | .error ⟨.notBinary operator, _⟩ => .error (.notBinary operator)
  | result => .ok result

def execute (source : Source) (store : Store) (input : List Lexeme) :
    Except Breach (Except Failure Store) :=
  if hasStatement input then do
    match ← assignment input with
    | .failed error _ => return .error (.parsing source error)
    | .done first rest _ =>
        match ← eval store first with
        | .error error => return .error (.evaluation source error)
        | .ok after => execute source after rest
  else .ok (.ok store)
termination_by input.length

/-! ## No trap on the way to the end of a stream -/

theorem expect_eq {input : List Lexeme} (closed : Closed input) (token : Token) :
    expect token input = .ok (Grammar.expect token input) := by
  rcases closed.exists_cons with ⟨first, rest, rfl⟩
  rfl

theorem expression_of_operand {layer tighter : Layer} (operand : layer.operand? = some tighter)
    (input : List Lexeme) :
    expression layer input =
      (expression tighter input).bind (chain (fun rest _ => expression layer rest) layer) := by
  rw [expression.eq_def]
  split
  · next found =>
      cases operand.symm.trans found
      rfl
  · next absent => simp [operand] at absent

theorem isOperator_of_joins {layer : Layer} {token : Token} (joins : layer.joins token = true) :
    token.isOperator = true := by
  cases layer <;> cases token <;> first | contradiction | rfl

theorem chain_joined {layer : Layer} {input rest : List Lexeme} {operator : Lexeme}
    (joins : layer.joins operator.token = true) (left : Expression)
    (shorter : (operator :: rest).length < input.length) {outcome : Outcome Expression rest}
    (read : expression layer rest = .ok outcome) :
    chain (fun rest _ => expression layer rest) layer (.done left (operator :: rest) shorter) =
      .ok (underOperator left operator shorter outcome) := by
  rw [chain, if_pos joins, joined, if_pos (isOperator_of_joins joins), read]
  rfl

theorem expression_eq (layer : Layer) {input : List Lexeme} (closed : Closed input) :
    expression layer input = .ok (Grammar.expression layer input) := by
  -- The tokens stay closed from call to call, so every call finds a token to look at.
  fun_induction Grammar.expression layer input with
  | case1 layer input tighter operand error rest read induction =>
      rw [expression_of_operand operand, induction closed, read]
      rfl
  | case2 layer input tighter operand left shorter read induction =>
      exact absurd rfl (closed.of_expression read).ne_nil
  | case3 layer input tighter operand left operator rest shorter readLeft joins error final
      readRight leftInduction rightInduction =>
      have closedRight := (closed.of_expression readLeft).of_cons (ne_eof_of_joins joins)
      have read := rightInduction closedRight
      rw [readRight] at read
      rw [expression_of_operand operand, leftInduction closed, readLeft]
      exact chain_joined joins left shorter read
  | case4 layer input tighter operand left operator rest shorter readLeft joins right
      final further readRight leftInduction rightInduction =>
      have closedRight := (closed.of_expression readLeft).of_cons (ne_eof_of_joins joins)
      have read := rightInduction closedRight
      rw [readRight] at read
      rw [expression_of_operand operand, leftInduction closed, readLeft]
      exact chain_joined joins left shorter read
  | case5 layer input tighter operand left operator rest shorter read notJoins induction =>
      rw [expression_of_operand operand, induction closed, read]
      exact if_neg notJoins
  | case6 => exact absurd rfl closed.ne_nil
  | case7 layer isFactor first rest opens error final read induction =>
      cases eq_factor_of_operand? isFactor
      have closedRest := closed.of_cons (by simp [opens])
      rw [expression.eq_def]
      simp only [Layer.operand?, opens, induction closedRest, read]
      rfl
  | case8 layer isFactor first rest opens inner middle shorter read error final unclosed
      induction =>
      cases eq_factor_of_operand? isFactor
      have closedRest := closed.of_cons (by simp [opens])
      rw [expression.eq_def]
      simp only [Layer.operand?, opens, induction closedRest, read, bind, Except.bind,
        expect_eq (closedRest.of_expression read), unclosed]
      rfl
  | case9 layer isFactor first rest opens inner middle shorter read closing final further
      found induction =>
      cases eq_factor_of_operand? isFactor
      have closedRest := closed.of_cons (by simp [opens])
      rw [expression.eq_def]
      simp only [Layer.operand?, opens, induction closedRest, read, bind, Except.bind,
        expect_eq (closedRest.of_expression read), found]
      rfl
  | case10 layer isFactor first rest digits token =>
      cases eq_factor_of_operand? isFactor
      rw [expression.eq_def]
      simp only [Layer.operand?, token, literal]
  | case11 layer isFactor first rest name token =>
      cases eq_factor_of_operand? isFactor
      rw [expression.eq_def]
      simp only [Layer.operand?, token]
  | case12 layer isFactor first rest isSign least final found notOpening notInt notIdent =>
      cases eq_factor_of_operand? isFactor
      rw [expression.eq_def]
      simp only [Layer.operand?]
      rw [if_pos isSign]
      split
      · next again =>
          cases found.symm.trans again
          rfl
      · next absent => simp [found] at absent
  | case13 layer isFactor first rest isSign absent notOpening notInt notIdent induction =>
      cases eq_factor_of_operand? isFactor
      have closedRest := closed.of_cons (ne_eof_of_isSign isSign)
      rw [expression.eq_def]
      simp only [Layer.operand?]
      rw [if_pos isSign]
      split
      · next found => simp [absent] at found
      · rw [signed, if_pos isSign, induction closedRest]
        rfl
  | case14 layer isFactor first rest notSign notOpening notInt notIdent =>
      cases eq_factor_of_operand? isFactor
      rw [expression.eq_def]
      simp only [Layer.operand?]
      exact if_neg notSign

theorem assignment_eq {input : List Lexeme} (closed : Closed input) :
    assignment input = .ok (Grammar.assignment input) := by
  fun_cases Grammar.assignment input with
  | case1 => exact absurd rfl closed.ne_nil
  | case2 name nameSpan rest error left unequal =>
      have closedRest := closed.of_cons (by simp)
      simp only [assignment, Grammar.assignment, expect_eq closedRest, unequal]
      rfl
  | case3 name nameSpan rest equals middle shorter foundEquals error left unread =>
      have closedRest := closed.of_cons (by simp)
      have closedValue := closedRest.of_expect (by simp) foundEquals
      simp only [assignment, Grammar.assignment, bind, Except.bind, expect_eq closedRest,
        foundEquals, expression_eq .sum closedValue, unread]
      rfl
  | case4 name nameSpan rest equals middle shorter foundEquals value behindValue further read
      error left unclosed =>
      have closedRest := closed.of_cons (by simp)
      have closedValue := closedRest.of_expect (by simp) foundEquals
      simp only [assignment, Grammar.assignment, bind, Except.bind, expect_eq closedRest,
        foundEquals, expression_eq .sum closedValue, read,
        expect_eq (closedValue.of_expression read), unclosed]
      rfl
  | case5 name nameSpan rest equals middle shorter foundEquals value behindValue further read
      closing left final foundClosing =>
      have closedRest := closed.of_cons (by simp)
      have closedValue := closedRest.of_expect (by simp) foundEquals
      simp only [assignment, Grammar.assignment, bind, Except.bind, expect_eq closedRest,
        foundEquals, expression_eq .sum closedValue, read,
        expect_eq (closedValue.of_expression read), foundClosing]
      rfl
  | case6 first rest nameless =>
      rcases first with ⟨token, span⟩
      cases token with
      | ident name => exact absurd rfl (nameless name span)
      | _ => rfl

theorem statements_eq {input : List Lexeme} (closed : Closed input) :
    statements input = .ok (Grammar.statements input) := by
  fun_induction Grammar.statements input with
  | case1 input due error left failed =>
      rw [statements, if_pos due, assignment_eq closed, failed]
      rfl
  | case2 input due first rest shorter read further result left stopped induction =>
      rw [statements, if_pos due, assignment_eq closed, read]
      simp only [bind, Except.bind]
      rw [induction (closed.of_assignment read), stopped]
      rfl
  | case3 input finished => rw [statements, if_neg finished]

theorem program_eq {stream : TokenStream} (closed : Closed stream.lexemes) :
    program stream = .ok (Parser.start stream).program := by
  rw [program, statements_eq closed]
  rfl

end Guarded

/-! ## Errors of these branches

Each of the branches has an error of its own, so from an error it can be told whether one of them
was taken. -/

def SyntaxCause.isInternal : SyntaxCause → Bool
  | .unexpectedEnd => true
  | .unexpected _ expected =>
      [["an operator"], ["`-` or `+`"], ["an integer literal"]].contains expected
  | _ => false

def EvalCause.isInternal : EvalCause → Bool
  | .notBinary _ => true
  | _ => false

def Failure.isInternal : Failure → Bool
  | .parsing _ error => error.cause.isInternal
  | .evaluation _ error => error.cause.isInternal
  | .access _ => false

theorem SyntaxError.Halts.isInternal_eq_false {error : SyntaxError} {found : Lexeme}
    (halts : error.Halts found) : error.cause.isInternal = false := by
  cases halts with
  | unexpected found expected listed =>
      have ordinary : ∀ expected ∈ expectations,
          (SyntaxCause.unexpected found.token expected).isInternal = false := by
        simp only [SyntaxCause.isInternal]
        decide
      exact ordinary expected listed
  | outOfRange digits span => rfl

theorem isInternal_of_assignment {input left : List Lexeme} {error : SyntaxError}
    (closed : Closed input) (failed : assignment input = .failed error left) :
    error.cause.isInternal = false := by
  rcases closed.exists_cons with ⟨⟨token, span⟩, rest, rfl⟩
  cases token with
  | ident name =>
      rcases exists_stuckAt_of_name closed failed with ⟨_, _, _, _, halts, _⟩
      exact halts.isInternal_eq_false
  | _ =>
      cases failed
      rfl

theorem isInternal_of_parse {stream : TokenStream} {error : SyntaxError}
    (closed : Closed stream.lexemes) (failed : parse stream = .error error) :
    error.cause.isInternal = false := by
  rcases exists_readTo_of_parse stream with ⟨read, rest, result, reading, stops, parsed⟩
  rw [parsed] at failed
  cases stops with
  | finished finished => contradiction
  | failed due unread =>
      cases failed
      exact isInternal_of_assignment (closed.of_readTo reading) unread

/-- A statement that is read has operators on its binary nodes. -/
theorem isInternal_of_eval {input rest : List Lexeme} {tree : Assignment} {shorter}
    (read : assignment input = .done tree rest shorter) {store : Store} {error : EvalError}
    (failed : tree.eval store = .error error) : error.cause.isInternal = false := by
  rcases exists_derivation_of_assignment read with ⟨statement, _, rfl⟩
  rw [Assignment.eval] at failed
  split at failed
  · next valueFailed =>
      cases failed
      have arithmetic := statement.value.isArithmetic_tree
      rcases Expression.exists_firstFailure?_of_eval arithmetic valueFailed with ⟨node, _, rfl⟩
      cases node <;> rfl
  · contradiction

theorem isInternal_of_execute {source : Source} {store : Store} {input : List Lexeme}
    {failure : Failure} (closed : Closed input)
    (failed : execute source store input = .error failure) : failure.isInternal = false := by
  fun_induction execute source store input with
  | case1 store input due error left unread =>
      cases failed
      exact isInternal_of_assignment closed unread
  | case2 store input due first rest shorter read error unevaluated =>
      cases failed
      exact isInternal_of_eval read unevaluated
  | case3 store input due first rest shorter read after evaluated induction =>
      exact induction (closed.of_assignment read) failed
  | case4 store input finished => contradiction

/-! ## Runs -/

namespace Guarded

theorem eval_eq {input rest : List Lexeme} {tree : Assignment} {shorter}
    (read : Grammar.assignment input = .done tree rest shorter) (store : Store) :
    eval store tree = .ok (tree.eval store) := by
  rw [eval]
  split
  · next operator span failed =>
      have ordinary := isInternal_of_eval read failed
      contradiction
  · rfl

theorem execute_eq (source : Source) (store : Store) {input : List Lexeme}
    (closed : Closed input) :
    execute source store input = .ok (Abacus.execute source store input) := by
  fun_induction Abacus.execute source store input with
  | case1 store input due error left unread =>
      rw [execute, if_pos due, assignment_eq closed, unread]
      rfl
  | case2 store input due first rest shorter read error unevaluated =>
      rw [execute, if_pos due, assignment_eq closed, read]
      simp only [bind, Except.bind, eval_eq read, unevaluated]
      rfl
  | case3 store input due first rest shorter read after evaluated induction =>
      rw [execute, if_pos due, assignment_eq closed, read]
      simp only [bind, Except.bind, eval_eq read, evaluated]
      exact induction (closed.of_assignment read)
  | case4 store input finished => rw [execute, if_neg finished]

end Guarded

/-! ## Texts -/

/-- Whoever reads a program to its end is left with the end of the source. -/
theorem program_of_parse {stream : TokenStream} {program : Program}
    (closed : Closed stream.lexemes) (parsed : parse stream = .ok program) :
    ∃ stop, (Parser.start stream).program = (.ok program, ⟨[⟨.eof, stop⟩], false⟩) ∧
      stream.lexemes.getLast? = some ⟨.eof, stop⟩ := by
  rcases exists_derivation_of_parse closed parsed with ⟨derivation, stop, equal, rfl⟩
  refine ⟨stop, ?_, ?_⟩
  · simp only [Parser.program, Parser.readProgram, Parser.start, equal, statements_programLexemes]
    rfl
  · rw [equal, List.getLast?_concat]

/-- No text leads into a trap, neither where it is parsed nor where it is run, and no error that
it meets is that of a trap. A parser that succeeds has nothing left but the end of the source. -/
theorem text_meets_no_breach (mode : Mode) (text : String) (store : Store) :
    Guarded.program (TokenStream.ofText mode text) =
      .ok (Parser.start (TokenStream.ofText mode text)).program ∧
    Guarded.execute ⟨"<input>", text⟩ store (TokenStream.ofText mode text).lexemes =
      .ok (Run.ofText mode text store).result ∧
    (∀ error, parseText mode text = .error error → error.cause.isInternal = false) ∧
    (∀ failure, (Run.ofText mode text store).result = .error failure →
      failure.isInternal = false) ∧
    (∀ program, parseText mode text = .ok program →
      ∃ stop, (Parser.start (TokenStream.ofText mode text)).program =
          (.ok program, ⟨[⟨.eof, stop⟩], false⟩) ∧
        (TokenStream.ofText mode text).lexemes.getLast? = some ⟨.eof, stop⟩) := by
  have closed : Closed (TokenStream.ofText mode text).lexemes := TokenStream.closed_ofItems _
  refine ⟨Guarded.program_eq closed, Guarded.execute_eq _ store closed, ?_, ?_, ?_⟩
  · intro error failed
    exact isInternal_of_parse closed failed
  · intro failure failed
    exact isInternal_of_execute closed failed
  · intro program parsed
    exact program_of_parse closed parsed

/-- A text that ends within an expression, and a program that reads an unbound variable. -/
theorem text_meets_no_breach_endingEarly :
    (parseText .strict "x = -(1 +" = .error ⟨.unexpected .eof factorStarts, ⟨9, 9⟩⟩ ∧
      (SyntaxCause.unexpected .eof factorStarts).isInternal = false) ∧
    ((Run.ofText .permissive "x = -(y);" .empty).result = .error
        (.evaluation ⟨"<input>", "x = -(y);"⟩ ⟨.undefinedVariable "y", ⟨6, 7⟩⟩) ∧
      (EvalCause.undefinedVariable "y").isInternal = false) ∧
    ∃ program, parseText .permissive "x = -(y);" = .ok program ∧
      ∃ stop, (Parser.start (TokenStream.ofText .permissive "x = -(y);")).program =
          (.ok program, ⟨[⟨.eof, stop⟩], false⟩) ∧
        (TokenStream.ofText .permissive "x = -(y);").lexemes.getLast? = some ⟨.eof, stop⟩ := by
  have unread : parseText .strict "x = -(1 +" =
      .error ⟨.unexpected .eof factorStarts, ⟨9, 9⟩⟩ := by
    decide +kernel
  have unevaluated : (Run.ofText .permissive "x = -(y);" .empty).result = .error
      (.evaluation ⟨"<input>", "x = -(y);"⟩ ⟨.undefinedVariable "y", ⟨6, 7⟩⟩) := by
    decide +kernel
  have parsed : parseText .permissive "x = -(y);" = .ok (.ofStatements
      [⟨"x", ⟨0, 1⟩, .unary .minus (.nested (.identifier "y" ⟨6, 7⟩) ⟨5, 8⟩) ⟨4, 8⟩,
        ⟨0, 9⟩⟩]) := by
    decide +kernel
  have early := text_meets_no_breach .strict "x = -(1 +" .empty
  have late := text_meets_no_breach .permissive "x = -(y);" .empty
  exact ⟨⟨unread, early.2.2.1 _ unread⟩, ⟨unevaluated, late.2.2.2.1 _ unevaluated⟩,
    _, parsed, late.2.2.2.2 _ parsed⟩

end Abacus
