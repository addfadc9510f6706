import Abacus.Proofs.Closing

/-! # Which token streams are programs

Statements end with a semicolon, so they are read one after the other without
looking at what follows. What is left when no statement is due is the end of the
stream. -/

namespace Abacus

open Grammar

/-! ## At most one derivation -/

namespace Derivation

/-- The sign of a signed factor is never read with a numeral behind it. -/
theorem signed_ne_least {sign : Lexeme} {operand : Derivation .factor} {minus span : Span}
    {digits : String} (reads : Integer.ofText? ("-" ++ digits) = some Int64.minValue)
    {rest other : List Lexeme} :
    sign :: (operand.lexemes ++ rest) ≠ ⟨.minus, minus⟩ :: ⟨.int digits, span⟩ :: other := by
  intro equal
  have absent := leastLiteral?_eq_none sign operand rest
  rw [equal, leastLiteral?, if_pos (by simp [isLeastMagnitude, reads])] at absent
  contradiction

theorem sign_cons_ne {sign : Lexeme} (isSign : sign.token = .minus ∨ sign.token = .plus)
    {token : Token} (other : token ≠ .minus ∧ token ≠ .plus) {span : Span}
    {rest behind : List Lexeme} : sign :: rest ≠ ⟨token, span⟩ :: behind := by
  intro equal
  have same : sign = ⟨token, span⟩ := (List.cons.inj equal).1
  rw [same] at isSign
  rcases isSign with minus | plus
  · exact other.1 minus
  · exact other.2 plus

theorem eq_of_lexemes_append (first second : Derivation layer) {rest other : List Lexeme}
    (stops : layer.StopsAt rest) (otherStops : layer.StopsAt other)
    (equal : first.lexemes ++ rest = second.lexemes ++ other) :
    first = second ∧ rest = other := by
  -- The rest is general because it is the right operand that follows the left one. A chain
  -- that goes on cannot be one that stops: its operator would stand in the other's rest.
  induction first generalizing rest other with
  | term only induction =>
      cases second with
      | term onlySecond =>
          have inner :=
            induction onlySecond (stopsAt_product stops) (stopsAt_product otherStops) equal
          exact ⟨congrArg term inner.1, inner.2⟩
      | sum left operator additive right =>
          rw [lexemes, lexemes, List.append_assoc] at equal
          rcases induction left (stopsAt_product stops)
              (stopsAt_product_of_additive additive _) equal with ⟨-, rfl⟩
          exact absurd stops (not_stopsAt_sum_of_additive additive)
  | sum left operator additive right leftInduction rightInduction =>
      cases second with
      | term only =>
          rw [lexemes, lexemes, List.append_assoc] at equal
          rcases leftInduction only (stopsAt_product_of_additive additive _)
              (stopsAt_product otherStops) equal with ⟨-, rfl⟩
          exact absurd otherStops (not_stopsAt_sum_of_additive additive)
      | sum leftSecond operatorSecond additiveSecond rightSecond =>
          rw [lexemes, lexemes, List.append_assoc, List.append_assoc] at equal
          rcases leftInduction leftSecond (stopsAt_product_of_additive additive _)
              (stopsAt_product_of_additive additiveSecond _) equal with ⟨rfl, same⟩
          rcases List.cons.inj same with ⟨rfl, behind⟩
          rcases rightInduction rightSecond stops otherStops behind with ⟨rfl, final⟩
          exact ⟨rfl, final⟩
  | factor only induction =>
      cases second with
      | factor onlySecond =>
          rcases induction onlySecond (stopsAt_factor _) (stopsAt_factor _) equal with ⟨rfl, same⟩
          exact ⟨rfl, same⟩
      | product left star right =>
          rw [lexemes, lexemes, List.append_assoc] at equal
          rcases induction left (stopsAt_factor _) (stopsAt_factor _) equal with ⟨-, rfl⟩
          exact absurd stops not_stopsAt_product_star
  | product left star right leftInduction rightInduction =>
      cases second with
      | factor only =>
          rw [lexemes, lexemes, List.append_assoc] at equal
          rcases leftInduction only (stopsAt_factor _) (stopsAt_factor _) equal with ⟨-, rfl⟩
          exact absurd otherStops not_stopsAt_product_star
      | product leftSecond starSecond rightSecond =>
          rw [lexemes, lexemes, List.append_assoc, List.append_assoc] at equal
          rcases leftInduction leftSecond (stopsAt_factor _) (stopsAt_factor _) equal with
            ⟨rfl, same⟩
          rcases List.cons.inj same with ⟨sameOperator, behind⟩
          have sameStar : star = starSecond := congrArg Lexeme.span sameOperator
          subst sameStar
          rcases rightInduction rightSecond stops otherStops behind with ⟨rfl, final⟩
          exact ⟨rfl, final⟩
  | parentheses opening inner closing induction =>
      cases second with
      | parentheses openingSecond innerSecond closingSecond =>
          simp only [lexemes, List.cons_append, List.append_assoc, List.cons.injEq,
            Lexeme.mk.injEq, true_and] at equal
          rcases equal with ⟨rfl, equal⟩
          rcases induction innerSecond (stopsAt_cons _ rfl _) (stopsAt_cons _ rfl _) equal with
            ⟨rfl, same⟩
          simp only [List.nil_append, List.cons.injEq, Lexeme.mk.injEq, true_and] at same
          rcases same with ⟨rfl, same⟩
          exact ⟨rfl, same⟩
      | signed sign isSign operand =>
          exact absurd equal.symm (sign_cons_ne isSign (by simp))
      | literal digits span value reads => simp [lexemes] at equal
      | least minus digits span reads => simp [lexemes] at equal
      | identifier name span => simp [lexemes] at equal
  | signed sign isSign operand induction =>
      cases second with
      | signed signSecond isSignSecond operandSecond =>
          rcases List.cons.inj equal with ⟨rfl, behind⟩
          rcases induction operandSecond stops otherStops behind with ⟨rfl, same⟩
          exact ⟨rfl, same⟩
      | least minus digits span reads => exact absurd equal (signed_ne_least reads)
      | parentheses opening inner closing =>
          exact absurd equal (sign_cons_ne isSign (by simp))
      | literal digits span value reads =>
          exact absurd equal (sign_cons_ne isSign (by simp))
      | identifier name span =>
          exact absurd equal (sign_cons_ne isSign (by simp))
  | literal digits span value reads =>
      cases second with
      | literal digitsSecond spanSecond valueSecond readsSecond =>
          simp only [lexemes, List.cons_append, List.nil_append, List.cons.injEq,
            Lexeme.mk.injEq, Token.int.injEq] at equal
          rcases equal with ⟨⟨rfl, rfl⟩, same⟩
          have sameValue : value = valueSecond :=
            Option.some.inj (reads.symm.trans readsSecond)
          subst sameValue
          exact ⟨rfl, same⟩
      | signed sign isSign operand =>
          exact absurd equal.symm (sign_cons_ne isSign (by simp))
      | parentheses opening inner closing => simp [lexemes] at equal
      | least minus digits span reads => simp [lexemes] at equal
      | identifier name span => simp [lexemes] at equal
  | least minus digits span reads =>
      cases second with
      | least minusSecond digitsSecond spanSecond readsSecond =>
          simp only [lexemes, List.cons_append, List.nil_append, List.cons.injEq,
            Lexeme.mk.injEq, Token.int.injEq, true_and] at equal
          rcases equal with ⟨rfl, ⟨rfl, rfl⟩, same⟩
          exact ⟨rfl, same⟩
      | signed sign isSign operand => exact absurd equal.symm (signed_ne_least reads)
      | parentheses opening inner closing => simp [lexemes] at equal
      | literal digits span value reads => simp [lexemes] at equal
      | identifier name span => simp [lexemes] at equal
  | identifier name span =>
      cases second with
      | identifier nameSecond spanSecond =>
          simp only [lexemes, List.cons_append, List.nil_append, List.cons.injEq,
            Lexeme.mk.injEq, Token.ident.injEq] at equal
          rcases equal with ⟨⟨rfl, rfl⟩, same⟩
          exact ⟨rfl, same⟩
      | signed sign isSign operand =>
          exact absurd equal.symm (sign_cons_ne isSign (by simp))
      | parentheses opening inner closing => simp [lexemes] at equal
      | literal digits span value reads => simp [lexemes] at equal
      | least minus digits span reads => simp [lexemes] at equal

theorem Statement.eq_of_lexemes_append {first second : Statement} {rest other : List Lexeme}
    (equal : first.lexemes ++ rest = second.lexemes ++ other) :
    first = second ∧ rest = other := by
  rcases first with ⟨name, nameSpan, equals, value, semicolon⟩
  rcases second with ⟨nameSecond, nameSpanSecond, equalsSecond, valueSecond, semicolonSecond⟩
  simp only [Statement.lexemes, List.cons_append, List.append_assoc, List.nil_append,
    List.cons.injEq, Lexeme.mk.injEq, Token.ident.injEq, true_and] at equal
  rcases equal with ⟨⟨rfl, rfl⟩, rfl, equal⟩
  rcases value.eq_of_lexemes_append valueSecond (stopsAt_cons _ rfl _)
      (stopsAt_cons _ rfl _) equal with ⟨rfl, same⟩
  simp only [List.cons.injEq, Lexeme.mk.injEq, true_and] at same
  rcases same with ⟨rfl, same⟩
  exact ⟨rfl, same⟩

theorem programLexemes_cons (statement : Statement) (statements : List Statement) :
    programLexemes (statement :: statements) =
      statement.lexemes ++ programLexemes statements := by
  rw [programLexemes, List.flatMap_cons]
  rfl

theorem programLexemes_injective : Function.Injective programLexemes := by
  intro first second equal
  induction first generalizing second with
  | nil =>
      cases second with
      | nil => rfl
      | cons statement statements =>
          rw [programLexemes_cons] at equal
          simp [programLexemes, Statement.lexemes] at equal
  | cons statement statements induction =>
      cases second with
      | nil =>
          rw [programLexemes_cons] at equal
          simp [programLexemes, Statement.lexemes] at equal
      | cons statementSecond statementsSecond =>
          rw [programLexemes_cons, programLexemes_cons] at equal
          rcases Statement.eq_of_lexemes_append equal with ⟨rfl, same⟩
          rw [induction same]

end Derivation

/-! ## Reading statements -/

namespace Grammar

theorem assignment_lexemes (statement : Derivation.Statement) (rest : List Lexeme) :
    (assignment (statement.lexemes ++ rest)).Gives statement.tree rest := by
  have stops : Layer.sum.StopsAt (⟨.semicolon, statement.semicolon⟩ :: rest) :=
    stopsAt_cons _ rfl rest
  rcases expression_lexemes statement.value stops with ⟨shorter, read⟩
  simp only [Derivation.Statement.lexemes, List.cons_append, List.append_assoc,
    List.nil_append, assignment, expect, if_true, read]
  exact ⟨_, rfl⟩

theorem exists_derivation_of_assignment {input rest : List Lexeme} {tree : Assignment} {shorter}
    (read : assignment input = .done tree rest shorter) :
    ∃ statement : Derivation.Statement, statement.lexemes ++ rest = input ∧
      statement.tree = tree := by
  unfold assignment at read
  split at read
  · contradiction
  · next name nameSpan behindName =>
      split at read
      · contradiction
      · next equals behindEquals _ foundEquals =>
          split at read
          · contradiction
          · next value behindValue _ foundValue =>
              split at read
              · contradiction
              · next semicolon final _ foundSemicolon =>
                  simp only [Outcome.done.injEq] at read
                  rcases read with ⟨rfl, rfl⟩
                  cases eq_of_expect_eq_done foundEquals
                  rcases exists_derivation_of_expression foundValue with ⟨derivation, rfl, rfl⟩
                  cases eq_of_expect_eq_done foundSemicolon
                  refine ⟨⟨name, nameSpan, equals, derivation, semicolon⟩, ?_, rfl⟩
                  simp [Derivation.Statement.lexemes]
  · contradiction

theorem Closed.of_assignment {input rest : List Lexeme} {tree : Assignment} {shorter}
    (closed : Closed input) (read : assignment input = .done tree rest shorter) :
    Closed rest := by
  rcases exists_derivation_of_assignment read with ⟨statement, rfl, _⟩
  apply closed.of_append
  intro lexeme member
  exact (statement.token_ne member).1

/-- Statements are read one after the other, from the first tokens to the second. -/
inductive ReadTo : List Lexeme → List Assignment → List Lexeme → Prop
  | nil : ReadTo input [] input
  | cons (due : hasStatement input = true) (read : (assignment input).Gives first middle)
      (further : ReadTo middle later rest) : ReadTo input (first :: later) rest

theorem Closed.of_readTo {input rest : List Lexeme} {read : List Assignment}
    (closed : Closed input) (reading : ReadTo input read rest) : Closed rest := by
  induction reading with
  | nil => exact closed
  | cons due read further induction =>
      rcases read with ⟨shorter, equal⟩
      exact induction (closed.of_assignment equal)

theorem statements_of_readTo {input rest : List Lexeme} {read : List Assignment}
    (reading : ReadTo input read rest) :
    statements input = (read ++ (statements rest).1, (statements rest).2) := by
  induction reading with
  | nil => rfl
  | cons due read further induction =>
      rcases read with ⟨shorter, equal⟩
      rw [statements, if_pos due, equal]
      simp only [induction, List.cons_append]

theorem statements_of_not_hasStatement {input : List Lexeme}
    (finished : hasStatement input = false) :
    statements input = ([], .ok (), input) := by
  rw [statements, if_neg (by simp [finished])]

/-- Reading comes to an end: no statement is due, or the next one cannot be read. -/
inductive StopsWith : List Lexeme → Except SyntaxError Unit → Prop
  | finished (finished : hasStatement rest = false) : StopsWith rest (.ok ())
  | failed (due : hasStatement rest = true) (failed : assignment rest = .failed error left) :
      StopsWith rest (.error error)

theorem exists_readTo (input : List Lexeme) :
    ∃ rest, ReadTo input (statements input).1 rest ∧ StopsWith rest (statements input).2.1 := by
  fun_induction statements input with
  | case1 input due error left failed => exact ⟨input, .nil, .failed due failed⟩
  | case2 input due first rest shorter equal further result left stopped induction =>
      rw [stopped] at induction
      rcases induction with ⟨final, reading, stops⟩
      exact ⟨final, .cons due ⟨shorter, equal⟩ reading, stops⟩
  | case3 input finished => exact ⟨input, .nil, .finished (by simpa using finished)⟩

theorem hasStatement_lexemes (statement : Derivation.Statement) (rest : List Lexeme) :
    hasStatement (statement.lexemes ++ rest) = true := rfl

theorem readTo_programLexemes (derivation : List Derivation.Statement) (rest : List Lexeme) :
    ReadTo (Derivation.programLexemes derivation ++ rest)
      (derivation.map Derivation.Statement.tree) rest := by
  induction derivation with
  | nil => exact .nil
  | cons statement further induction =>
      rw [Derivation.programLexemes_cons, List.append_assoc]
      exact .cons (hasStatement_lexemes statement _) (assignment_lexemes statement _) induction

theorem exists_derivation_of_readTo {input rest : List Lexeme} {read : List Assignment}
    (reading : ReadTo input read rest) :
    ∃ derivation, input = Derivation.programLexemes derivation ++ rest ∧
      read = derivation.map Derivation.Statement.tree := by
  induction reading with
  | nil => exact ⟨[], rfl, rfl⟩
  | cons due read further induction =>
      rcases read with ⟨shorter, equal⟩
      rcases induction with ⟨derivation, rfl, rfl⟩
      rcases exists_derivation_of_assignment equal with ⟨statement, rfl, rfl⟩
      refine ⟨statement :: derivation, ?_, rfl⟩
      rw [Derivation.programLexemes_cons, List.append_assoc]

theorem statements_programLexemes (derivation : List Derivation.Statement) (stop : Span) :
    statements (Derivation.programLexemes derivation ++ [⟨.eof, stop⟩]) =
      (derivation.map Derivation.Statement.tree, .ok (), [⟨.eof, stop⟩]) := by
  rw [statements_of_readTo (readTo_programLexemes derivation _),
    statements_of_not_hasStatement rfl, List.append_nil]

theorem exists_derivation_of_statements {input : List Lexeme} (closed : Closed input)
    (read : (statements input).2.1 = .ok ()) :
    ∃ derivation stop, input = Derivation.programLexemes derivation ++ [⟨.eof, stop⟩] ∧
      (statements input).1 = derivation.map Derivation.Statement.tree := by
  rcases exists_readTo input with ⟨rest, reading, stops⟩
  rcases exists_derivation_of_readTo reading with ⟨derivation, equal, trees⟩
  rw [read] at stops
  cases stops with
  | finished finished =>
      rcases (closed.of_readTo reading).eq_of_not_hasStatement finished with ⟨stop, rfl⟩
      exact ⟨derivation, stop, equal, trees⟩

end Grammar

/-! ## Whole programs -/

theorem Program.statements_ofStatements (statements : List Assignment) :
    (ofStatements statements).statements = statements := by
  unfold ofStatements
  split <;> rfl

theorem parse_eq (stream : TokenStream) :
    parse stream = (statements stream.lexemes).2.1.map
      fun _ => .ofStatements (statements stream.lexemes).1 := by
  simp only [parse, Parser.program, Parser.readProgram, Parser.start]
  cases (statements stream.lexemes).2.1 <;> rfl

/-- A stream is read statement by statement until reading comes to an end. -/
theorem exists_readTo_of_parse (stream : TokenStream) :
    ∃ read rest result, ReadTo stream.lexemes read rest ∧ StopsWith rest result ∧
      parse stream = result.map fun _ => .ofStatements read := by
  rcases exists_readTo stream.lexemes with ⟨rest, reading, stops⟩
  exact ⟨_, rest, _, reading, stops, parse_eq stream⟩

theorem exists_derivation_of_parse {stream : TokenStream} {program : Program}
    (closed : Closed stream.lexemes) (parsed : parse stream = .ok program) :
    ∃ derivation stop,
      stream.lexemes = Derivation.programLexemes derivation ++ [⟨.eof, stop⟩] ∧
      program = Derivation.programTree derivation := by
  rw [parse_eq] at parsed
  cases result : (statements stream.lexemes).2.1 with
  | error error =>
      rw [result] at parsed
      contradiction
  | ok done =>
      rcases exists_derivation_of_statements closed result with ⟨derivation, stop, equal, trees⟩
      rw [result, trees] at parsed
      exact ⟨derivation, stop, equal, (Except.ok.inj parsed).symm⟩

theorem parse_of_derivation {stream : TokenStream} {derivation : List Derivation.Statement}
    {stop : Span}
    (equal : stream.lexemes = Derivation.programLexemes derivation ++ [⟨.eof, stop⟩]) :
    parse stream = .ok (Derivation.programTree derivation) := by
  rw [parse_eq, equal, statements_programLexemes]
  rfl

/-- A stream is a program exactly if it is derived up to its end. There is one derivation,
and the program is its tree. -/
theorem parse_ofItems_iff_derivation (items : List Item) :
    (∀ program, parse (TokenStream.ofItems items) = .ok program ↔
      ∃ derivation stop,
        (TokenStream.ofItems items).lexemes =
          Derivation.programLexemes derivation ++ [⟨.eof, stop⟩] ∧
        program = Derivation.programTree derivation) ∧
    Function.Injective Derivation.programLexemes := by
  refine ⟨fun program => ⟨?_, ?_⟩, Derivation.programLexemes_injective⟩
  · exact exists_derivation_of_parse (TokenStream.closed_ofItems items)
  · rintro ⟨derivation, stop, equal, rfl⟩
    exact parse_of_derivation equal

end Abacus
