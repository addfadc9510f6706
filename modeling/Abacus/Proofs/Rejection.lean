import Abacus.Proofs.Concatenation
import Abacus.Proofs.Excerpts

/-! # Where reading fails

A syntax error is about the first token with which the tokens before it cannot go on to a
program. They can go on without it: whatever was taken so far has a completion. And they cannot
go on with it: whatever follows that token, the same error is met there. -/

namespace Abacus

open Grammar

/-! ## The token that an error is about -/

namespace SyntaxError

/-- The error stands where the token does and repeats what the token is. -/
def About (error : SyntaxError) (found : Lexeme) : Prop :=
  error.span = found.span ∧
    match error.cause with
    | .notAnAssignment token => token = found.token
    | .unexpected token _ => token = found.token
    | .unexpectedEnd => False
    | .literalOutOfRange digits => found.token = .int digits

/-- What a token within a statement can stand in the place of. -/
def expectations : List (List String) :=
  factorStarts :: [Token.equals, Token.semicolon, Token.rightParen].map ([·.quoted])

/-- An error within a statement: a token in the place of others, or a numeral without a
value. -/
inductive Halts : SyntaxError → Lexeme → Prop
  | unexpected (found : Lexeme) (expected : List String) (listed : expected ∈ expectations) :
      Halts (.unexpected found expected) found
  | outOfRange (digits : String) (span : Span) :
      Halts ⟨.literalOutOfRange digits, span⟩ ⟨.int digits, span⟩

namespace Halts

variable {error : SyntaxError} {found : Lexeme}

theorem about (halts : error.Halts found) : error.About found := by
  cases halts with
  | unexpected found expected listed => exact ⟨rfl, rfl⟩
  | outOfRange digits span => exact ⟨rfl, rfl⟩

theorem cause_ne (halts : error.Halts found) (token : Token) :
    error.cause ≠ .notAnAssignment token := by
  cases halts with
  | unexpected found expected listed => exact SyntaxCause.noConfusion
  | outOfRange digits span => exact SyntaxCause.noConfusion

end Halts

end SyntaxError

namespace Grammar

/-- The tokens taken go on to something that is derived, and with the token found behind them
they never do. -/
structure StuckAt (part : (input : List Lexeme) → Outcome α input)
    (derived : List Lexeme → Prop) (error : SyntaxError) (taken : List Lexeme) (found : Lexeme) :
    Prop where
  completes : ∃ more, derived (taken ++ more)
  rejects : ∀ behind, ∃ left, part (taken ++ found :: behind) = .failed error left

def Layer.Derives (layer : Layer) (lexemes : List Lexeme) : Prop :=
  ∃ derivation : Derivation layer, derivation.lexemes = lexemes

theorem Closed.exists_cons {input : List Lexeme} (closed : Closed input) :
    ∃ first rest, input = first :: rest :=
  List.exists_cons_of_ne_nil closed.ne_nil

theorem expect_of_ne {found : Lexeme} {token : Token} (different : found.token ≠ token)
    (behind : List Lexeme) :
    expect token (found :: behind) = .failed (.unexpected found [token.quoted]) (found :: behind) :=
  if_neg different

theorem exists_found_of_expect {token : Token} {input rest : List Lexeme} {error : SyntaxError}
    (closed : Closed input) (failed : expect token input = .failed error rest) :
    ∃ found behind, input = found :: behind ∧ found.token ≠ token ∧
      error = .unexpected found [token.quoted] := by
  rcases closed.exists_cons with ⟨found, behind, rfl⟩
  have different : found.token ≠ token := by
    intro same
    simp [expect, same] at failed
  rw [expect_of_ne different, Outcome.failed.injEq] at failed
  exact ⟨found, behind, rfl, different, failed.1.symm⟩

/-! ## One rule at a time -/

section Rules

variable {layer tighter : Layer} {error : SyntaxError} {taken : List Lexeme} {found : Lexeme}

theorem Layer.Derives.of_operand (operand : layer.operand? = some tighter) {lexemes : List Lexeme}
    (derives : tighter.Derives lexemes) : layer.Derives lexemes := by
  rcases derives with ⟨derivation, rfl⟩
  cases layer with
  | sum =>
      cases operand
      exact ⟨.term derivation, rfl⟩
  | product =>
      cases operand
      exact ⟨.factor derivation, rfl⟩
  | factor => contradiction

theorem stuckAt_operand (operand : layer.operand? = some tighter)
    (stuck : StuckAt (expression tighter) tighter.Derives error taken found) :
    StuckAt (expression layer) layer.Derives error taken found where
  completes := by
    rcases stuck.completes with ⟨more, derives⟩
    exact ⟨more, derives.of_operand operand⟩
  rejects behind := by
    rcases stuck.rejects behind with ⟨left, failed⟩
    exact ⟨left, expression_failed operand failed⟩

theorem stuckAt_joined (operand : layer.operand? = some tighter) {operator : Lexeme}
    (joins : layer.joins operator.token = true) (left : Derivation tighter)
    (ends : tighter.continues operator.token = false)
    (stuck : StuckAt (expression layer) layer.Derives error taken found) :
    StuckAt (expression layer) layer.Derives error (left.lexemes ++ operator :: taken) found where
  completes := by
    rcases stuck.completes with ⟨more, right, equal⟩
    rcases derived_joined operand joins left right with ⟨derivation, lexemes, _⟩
    refine ⟨more, derivation, ?_⟩
    rw [lexemes, equal, List.append_assoc, List.cons_append]
  rejects behind := by
    rcases stuck.rejects behind with ⟨final, failed⟩
    have read := expression_lexemes left (stopsAt_cons operator ends (taken ++ found :: behind))
    rw [List.append_assoc, List.cons_append]
    exact ⟨final, expression_joined_failed operand read joins failed⟩

theorem stuckAt_inner {first : Lexeme} (opens : first.token = .leftParen)
    (stuck : StuckAt (expression .sum) Layer.sum.Derives error taken found) :
    StuckAt (expression .factor) Layer.factor.Derives error (first :: taken) found where
  completes := by
    rcases stuck.completes with ⟨more, inner, equal⟩
    rcases first with ⟨_, opening⟩
    subst opens
    refine ⟨more ++ [⟨.rightParen, opening⟩], .parentheses opening inner opening, ?_⟩
    rw [Derivation.lexemes, equal, List.cons_append, List.append_assoc]
  rejects behind := by
    rcases stuck.rejects behind with ⟨left, failed⟩
    exact ⟨left, expression_inner_failed first opens failed⟩

theorem stuckAt_unclosed {first : Lexeme} (opens : first.token = .leftParen)
    (inner : Derivation .sum) (ends : Layer.sum.continues found.token = false)
    (unclosed : found.token ≠ .rightParen) :
    StuckAt (expression .factor) Layer.factor.Derives
      (.unexpected found [Token.rightParen.quoted]) (first :: inner.lexemes) found where
  completes := by
    rcases first with ⟨_, opening⟩
    subst opens
    exact ⟨[⟨.rightParen, opening⟩], .parentheses opening inner opening, rfl⟩
  rejects behind := by
    have read := expression_lexemes inner (stopsAt_cons found ends behind)
    exact ⟨_, expression_unclosed first opens read (expect_of_ne unclosed behind)⟩

/-- Whether a sign is read with a numeral is seen from the token behind it. -/
theorem leastLiteral?_eq_none_of_cons {sign next : Lexeme} {rest : List Lexeme}
    (absent : leastLiteral? (sign :: next :: rest) = none) (other : List Lexeme) :
    leastLiteral? (sign :: next :: other) = none := by
  unfold leastLiteral? at absent ⊢
  split
  · next digits span _ equal =>
      simp only [List.cons.injEq] at equal
      rcases equal with ⟨rfl, rfl, rfl⟩
      by_cases isLeast : isLeastMagnitude digits = true
      · simp [isLeast] at absent
      · exact if_neg isLeast
  · rfl

theorem stuckAt_sign {sign : Lexeme} (isSign : sign.token.isSign = true) {behind : List Lexeme}
    (absent : leastLiteral? (sign :: (taken ++ found :: behind)) = none)
    (stuck : StuckAt (expression .factor) Layer.factor.Derives error taken found) :
    StuckAt (expression .factor) Layer.factor.Derives error (sign :: taken) found where
  completes := by
    rcases stuck.completes with ⟨more, operand, equal⟩
    refine ⟨more, .signed sign (Token.eq_of_isSign isSign) operand, ?_⟩
    rw [Derivation.lexemes, equal, List.cons_append]
  rejects other := by
    rcases stuck.rejects other with ⟨left, failed⟩
    have notLeast : leastLiteral? (sign :: (taken ++ found :: other)) = none := by
      cases taken with
      | nil => exact leastLiteral?_eq_none_of_cons absent other
      | cons next taken => exact leastLiteral?_eq_none_of_cons absent (taken ++ found :: other)
    refine ⟨left, ?_⟩
    rw [List.cons_append, expression_sign sign isSign notLeast, failed]
    rfl

theorem derives_factor : ∃ more, Layer.factor.Derives ([] ++ more) :=
  ⟨[⟨.ident "x", .point 0⟩], .identifier "x" (.point 0), rfl⟩

theorem stuckAt_literal {digits : String} (span : Span) (unread : Integer.ofText? digits = none) :
    StuckAt (expression .factor) Layer.factor.Derives ⟨.literalOutOfRange digits, span⟩ []
      ⟨.int digits, span⟩ where
  completes := derives_factor
  rejects behind := by
    refine ⟨behind, ?_⟩
    rw [List.nil_append, expression_int _ rfl]
    simp only [literal, unread]

theorem stuckAt_start (notOpening : found.token ≠ .leftParen)
    (notInt : ∀ digits, found.token ≠ .int digits)
    (notIdent : ∀ name, found.token ≠ .ident name) (notSign : ¬ found.token.isSign = true) :
    StuckAt (expression .factor) Layer.factor.Derives (.unexpected found factorStarts) []
      found where
  completes := derives_factor
  rejects behind := ⟨_, expression_unexpected found notOpening notInt notIdent notSign behind⟩

end Rules

/-! ## Expressions -/

theorem stopsAt_of_operand {layer tighter : Layer} (operand : layer.operand? = some tighter)
    {lexeme : Lexeme} {rest : List Lexeme} (stops : tighter.StopsAt (lexeme :: rest))
    (notJoins : ¬ layer.joins lexeme.token = true) : layer.StopsAt (lexeme :: rest) := by
  have ends := stops lexeme rfl
  apply stopsAt_cons
  cases layer with
  | sum =>
      cases operand
      simpa [Layer.continues, notJoins] using ends
  | product => simpa [Layer.continues] using notJoins
  | factor => contradiction

/-- A value is read as far as it goes, and an error is about a token where reading is stuck. -/
def Settled (layer : Layer) {input : List Lexeme} : Outcome Expression input → Prop
  | .done _ rest _ => layer.StopsAt rest
  | .failed error _ => ∃ taken found behind, input = taken ++ found :: behind ∧
      error.Halts found ∧ StuckAt (expression layer) layer.Derives error taken found

theorem settled_literal {digits : String} {span : Span} {rest : List Lexeme} :
    Settled .factor (literal (⟨.int digits, span⟩ :: rest)) := by
  simp only [literal]
  split
  · exact stopsAt_factor rest
  · next unread =>
      exact ⟨[], ⟨.int digits, span⟩, rest, rfl, .outOfRange digits span,
        stuckAt_literal span unread⟩

theorem settled_underSign {sign : Lexeme} (isSign : sign.token.isSign = true) {input : List Lexeme}
    (absent : leastLiteral? (sign :: input) = none) {outcome : Outcome Expression input}
    (settled : Settled .factor outcome) : Settled .factor (underSign sign outcome) := by
  cases outcome with
  | done operand rest shorter => exact stopsAt_factor rest
  | failed error rest =>
      rcases settled with ⟨taken, found, behind, rfl, halts, stuck⟩
      exact ⟨sign :: taken, found, behind, rfl, halts, stuckAt_sign isSign absent stuck⟩

theorem ne_eof_of_joins {layer : Layer} {token : Token} (joins : layer.joins token = true) :
    token ≠ .eof := by
  rintro rfl
  cases layer <;> contradiction

theorem ne_eof_of_isSign {token : Token} (isSign : token.isSign = true) : token ≠ .eof := by
  rintro rfl
  contradiction

theorem settled_expression (layer : Layer) {input : List Lexeme} (closed : Closed input) :
    Settled layer (expression layer input) := by
  fun_induction expression layer input with
  | case1 layer input tighter operand error rest read induction =>
      rw [read] at induction
      rcases induction closed with ⟨taken, found, behind, equal, halts, stuck⟩
      exact ⟨taken, found, behind, equal, halts, stuckAt_operand operand stuck⟩
  | case2 => exact fun lexeme member => absurd member (Option.not_mem_none lexeme)
  | case3 layer input tighter operand left operator rest shorter readLeft joins error final
      readRight leftInduction rightInduction =>
      have closedLeft := closed.of_expression readLeft
      have stops := leftInduction closed
      rw [readLeft] at stops
      rw [readRight] at rightInduction
      rcases rightInduction (closedLeft.of_cons (ne_eof_of_joins joins)) with
        ⟨taken, found, behind, rfl, halts, stuck⟩
      rcases exists_derivation_of_expression readLeft with ⟨derivation, rfl, _⟩
      refine ⟨derivation.lexemes ++ operator :: taken, found, behind, by simp, halts, ?_⟩
      exact stuckAt_joined operand joins derivation (stops operator rfl) stuck
  | case4 layer input tighter operand left operator rest shorter readLeft joins right
      final further readRight leftInduction rightInduction =>
      rw [readRight] at rightInduction
      apply rightInduction
      exact (closed.of_expression readLeft).of_cons (ne_eof_of_joins joins)
  | case5 layer input tighter operand left operator rest shorter read notJoins induction =>
      have stops := induction closed
      rw [read] at stops
      exact stopsAt_of_operand operand stops notJoins
  | case6 => exact absurd rfl closed.ne_nil
  | case7 layer isFactor first rest opens error final read induction =>
      cases eq_factor_of_operand? isFactor
      rw [read] at induction
      rcases induction (closed.of_cons (by simp [opens])) with
        ⟨taken, found, behind, rfl, halts, stuck⟩
      exact ⟨first :: taken, found, behind, rfl, halts, stuckAt_inner opens stuck⟩
  | case8 layer isFactor first rest opens inner middle shorter read error final unclosed
      induction =>
      cases eq_factor_of_operand? isFactor
      have closedRest := closed.of_cons (by simp [opens])
      have stops := induction closedRest
      rw [read] at stops
      rcases exists_found_of_expect (closedRest.of_expression read) unclosed with
        ⟨found, behind, rfl, different, rfl⟩
      rcases exists_derivation_of_expression read with ⟨derivation, rfl, _⟩
      refine ⟨first :: derivation.lexemes, found, behind, rfl,
        .unexpected found _ (by decide), ?_⟩
      exact stuckAt_unclosed opens derivation (stops found rfl) different
  | case9 layer isFactor first rest opens inner middle shorter read closing final further
      closed induction =>
      cases eq_factor_of_operand? isFactor
      exact stopsAt_factor final
  | case10 layer isFactor first rest digits token =>
      cases eq_factor_of_operand? isFactor
      rcases first with ⟨_, span⟩
      subst token
      exact settled_literal
  | case11 layer isFactor first rest name token =>
      cases eq_factor_of_operand? isFactor
      exact stopsAt_factor rest
  | case12 layer isFactor first rest isSign least final found =>
      cases eq_factor_of_operand? isFactor
      exact stopsAt_factor final
  | case13 layer isFactor first rest isSign absent _ _ _ induction =>
      cases eq_factor_of_operand? isFactor
      apply settled_underSign isSign absent
      apply induction
      exact closed.of_cons (ne_eof_of_isSign isSign)
  | case14 layer isFactor first rest notSign notOpening notInt notIdent =>
      cases eq_factor_of_operand? isFactor
      exact ⟨[], first, rest, rfl, .unexpected first factorStarts (by decide),
        stuckAt_start notOpening notInt notIdent notSign⟩

theorem exists_stuckAt_of_expression {layer : Layer} {input rest : List Lexeme}
    {error : SyntaxError} (closed : Closed input)
    (failed : expression layer input = .failed error rest) :
    ∃ taken found behind, input = taken ++ found :: behind ∧ error.Halts found ∧
      StuckAt (expression layer) layer.Derives error taken found := by
  have settled := settled_expression layer closed
  rwa [failed] at settled

theorem stopsAt_of_expression {layer : Layer} {input rest : List Lexeme} {tree : Expression}
    {shorter} (closed : Closed input) (read : expression layer input = .done tree rest shorter) :
    layer.StopsAt rest := by
  have settled := settled_expression layer closed
  rwa [read] at settled

/-! ## Statements -/

def StatementDerives (lexemes : List Lexeme) : Prop :=
  ∃ statement : Derivation.Statement, statement.lexemes = lexemes

section Statements

variable {name : String} {nameSpan : Span} {equals : Span} {taken : List Lexeme} {found : Lexeme}
  {error : SyntaxError}

theorem stuckAt_name (first : Lexeme) (nameless : ∀ name, first.token ≠ .ident name) :
    StuckAt assignment StatementDerives ⟨.notAnAssignment first.token, first.span⟩ [] first where
  completes :=
    ⟨_, ⟨"x", .point 0, .point 0, .term (.factor (.identifier "x" (.point 0))), .point 0⟩, rfl⟩
  rejects behind := by
    rcases first with ⟨token, span⟩
    cases token with
    | ident name => exact absurd rfl (nameless name)
    | _ => exact ⟨_, rfl⟩

theorem stuckAt_equals (different : found.token ≠ .equals) :
    StuckAt assignment StatementDerives (.unexpected found [Token.equals.quoted])
      [⟨.ident name, nameSpan⟩] found where
  completes :=
    ⟨_, ⟨name, nameSpan, .point 0, .term (.factor (.identifier "x" (.point 0))), .point 0⟩, rfl⟩
  rejects behind := by
    simp only [List.cons_append, List.nil_append, assignment, expect_of_ne different]
    exact ⟨_, rfl⟩

theorem stuckAt_value
    (stuck : StuckAt (expression .sum) Layer.sum.Derives error taken found) :
    StuckAt assignment StatementDerives error
      (⟨.ident name, nameSpan⟩ :: ⟨.equals, equals⟩ :: taken) found where
  completes := by
    rcases stuck.completes with ⟨more, value, equal⟩
    refine ⟨more ++ [⟨.semicolon, .point 0⟩], ⟨name, nameSpan, equals, value, .point 0⟩, ?_⟩
    simp [Derivation.Statement.lexemes, equal]
  rejects behind := by
    rcases stuck.rejects behind with ⟨left, failed⟩
    simp only [List.cons_append, assignment, expect, if_true, failed]
    exact ⟨_, rfl⟩

theorem stuckAt_semicolon (value : Derivation .sum)
    (ends : Layer.sum.continues found.token = false) (different : found.token ≠ .semicolon) :
    StuckAt assignment StatementDerives (.unexpected found [Token.semicolon.quoted])
      (⟨.ident name, nameSpan⟩ :: ⟨.equals, equals⟩ :: value.lexemes) found where
  completes := by
    refine ⟨[⟨.semicolon, .point 0⟩], ⟨name, nameSpan, equals, value, .point 0⟩, ?_⟩
    simp [Derivation.Statement.lexemes]
  rejects behind := by
    rcases expression_lexemes value (stopsAt_cons found ends behind) with ⟨_, read⟩
    simp only [List.cons_append, assignment, expect, if_true, read]
    simp only [different, if_false]
    exact ⟨_, rfl⟩

/-- A statement that starts with a name fails at a token behind the name. -/
theorem exists_stuckAt_of_name {rest left : List Lexeme}
    (closed : Closed (⟨.ident name, nameSpan⟩ :: rest))
    (failed : assignment (⟨.ident name, nameSpan⟩ :: rest) = .failed error left) :
    ∃ taken found behind, ⟨.ident name, nameSpan⟩ :: rest = taken ++ found :: behind ∧
      error.Halts found ∧ StuckAt assignment StatementDerives error taken found := by
  have closedRest := closed.of_cons (by simp)
  simp only [assignment] at failed
  split at failed
  · next unequal =>
      rw [Outcome.failed.injEq] at failed
      rcases failed with ⟨rfl, _⟩
      rcases exists_found_of_expect closedRest unequal with ⟨found, behind, rfl, different, rfl⟩
      exact ⟨[⟨.ident name, nameSpan⟩], found, behind, rfl, .unexpected found _ (by decide),
        stuckAt_equals different⟩
  · next equals middle _ foundEquals =>
      cases eq_of_expect_eq_done foundEquals
      have closedValue := closedRest.of_cons (by simp)
      split at failed
      · next unread =>
          rw [Outcome.failed.injEq] at failed
          rcases failed with ⟨rfl, _⟩
          rcases exists_stuckAt_of_expression closedValue unread with
            ⟨taken, found, behind, rfl, halts, stuck⟩
          exact ⟨⟨.ident name, nameSpan⟩ :: ⟨.equals, equals⟩ :: taken, found, behind, rfl, halts,
            stuckAt_value stuck⟩
      · next value behindValue _ read =>
          have stops := stopsAt_of_expression closedValue read
          split at failed
          · next unclosed =>
              rw [Outcome.failed.injEq] at failed
              rcases failed with ⟨rfl, _⟩
              rcases exists_found_of_expect (closedValue.of_expression read) unclosed with
                ⟨found, behind, rfl, different, rfl⟩
              rcases exists_derivation_of_expression read with ⟨derivation, rfl, _⟩
              exact ⟨⟨.ident name, nameSpan⟩ :: ⟨.equals, equals⟩ :: derivation.lexemes, found,
                behind, rfl, .unexpected found _ (by decide),
                stuckAt_semicolon derivation (stops found rfl) different⟩
          · contradiction

theorem exists_stuckAt_of_assignment {input left : List Lexeme} (closed : Closed input)
    (failed : assignment input = .failed error left) :
    ∃ taken found behind, input = taken ++ found :: behind ∧ error.About found ∧
      StuckAt assignment StatementDerives error taken found := by
  rcases closed.exists_cons with ⟨first, rest, rfl⟩
  by_cases named : ∃ name, first.token = .ident name
  · rcases first with ⟨_, span⟩
    rcases named with ⟨name, rfl⟩
    rcases exists_stuckAt_of_name closed failed with ⟨taken, found, behind, equal, halts, stuck⟩
    exact ⟨taken, found, behind, equal, halts.about, stuck⟩
  · have stuck := stuckAt_name first (not_exists.mp named)
    rcases stuck.rejects rest with ⟨other, again⟩
    rw [List.nil_append, failed, Outcome.failed.injEq] at again
    rcases again with ⟨rfl, _⟩
    exact ⟨[], first, rest, rfl, ⟨rfl, rfl⟩, stuck⟩

end Statements

/-! ## Programs -/

/-- Whether tokens are a program does not depend on their places. -/
theorem statements_eq_ok_of_tokens_eq {first second : List Lexeme}
    (same : first.map (·.token) = second.map (·.token))
    (read : (statements first).2.1 = .ok ()) : (statements second).2.1 = .ok () := by
  have moved := congrArg (·.2.1) (statements_relocated .erase first)
  rw [Relocation.erased_eq_of_tokens_eq same, statements_relocated, read] at moved
  cases result : (statements second).2.1 with
  | error error =>
      rw [result] at moved
      contradiction
  | ok done => rfl

theorem hasStatement_append_cons {taken behind : List Lexeme} (found : Lexeme)
    (due : taken = [] → behind ≠ []) : hasStatement (taken ++ found :: behind) = true := by
  cases taken with
  | nil => simpa [hasStatement] using due rfl
  | cons first taken => simp [hasStatement]

theorem statements_of_stuckAt (derivation : List Derivation.Statement) {error : SyntaxError}
    {taken behind : List Lexeme} {found : Lexeme}
    (stuck : StuckAt assignment StatementDerives error taken found)
    (due : taken = [] → behind ≠ []) :
    (statements (Derivation.programLexemes derivation ++ (taken ++ found :: behind))).2.1 =
      .error error := by
  rcases stuck.rejects behind with ⟨left, failed⟩
  rw [statements_of_readTo (readTo_programLexemes derivation _), statements,
    if_pos (hasStatement_append_cons found due), failed]

end Grammar

namespace TokenStream

/-- In the tokens of a text, the end of the source stands at the end only. -/
theorem token_ne_eof {mode : Mode} {text : String} {before behind : List Lexeme} {found : Lexeme}
    (split : (ofText mode text).lexemes = before ++ found :: behind) (inhabited : behind ≠ []) :
    found.token ≠ .eof := by
  rcases (Layout.of_text mode text).exists_end with ⟨front, final, items, _, notEnd⟩
  rw [lexemes_ofText, items, List.map_append, ← List.dropLast_concat_getLast inhabited,
    ← List.cons_append, ← List.append_assoc] at split
  have equal := (List.append_inj' split rfl).1
  have member : found ∈ front.map Item.lexeme := by
    rw [equal]
    exact List.mem_append_right _ List.mem_cons_self
  rcases List.mem_map.mp member with ⟨item, itemMember, rfl⟩
  exact Item.token_ne_eof (notEnd item itemMember)

theorem lexemes_ofItems_read (lexemes : List Lexeme) (stop : Span) :
    (ofItems (lexemes.map .read ++ [.read ⟨.eof, stop⟩])).lexemes = lexemes ++ [⟨.eof, stop⟩] := by
  simp [ofItems, closed, Function.comp_def, Item.lexeme]

end TokenStream

/-- The tokens are the front of some program's tokens. -/
def Viable (tokens : List Token) : Prop :=
  ∃ items program, tokens <+: (TokenStream.ofItems items).tokens ∧
    parse (TokenStream.ofItems items) = .ok program

theorem viable_of_completes (derivation : List Derivation.Statement) {taken : List Lexeme}
    (completes : ∃ more, StatementDerives (taken ++ more)) :
    Viable ((Derivation.programLexemes derivation ++ taken).map (·.token)) := by
  rcases completes with ⟨more, statement, equal⟩
  have lexemes := TokenStream.lexemes_ofItems_read
    (Derivation.programLexemes (derivation ++ [statement])) (.point 0)
  refine ⟨_, _, ?_, parse_of_derivation lexemes⟩
  rw [TokenStream.tokens, lexemes]
  refine ⟨more.map (·.token) ++ [.eof], ?_⟩
  simp [Derivation.programLexemes, equal]

theorem not_viable_of_stuckAt (derivation : List Derivation.Statement) {error : SyntaxError}
    {taken : List Lexeme} {found : Lexeme}
    (stuck : StuckAt assignment StatementDerives error taken found)
    (due : taken = [] → found.token ≠ .eof) :
    ¬ Viable ((Derivation.programLexemes derivation ++ taken ++ [found]).map (·.token)) := by
  rintro ⟨items, program, ⟨more, tokens⟩, parsed⟩
  rcases TokenStream.closed_ofItems items with ⟨stop, last⟩
  rcases List.map_eq_append_iff.mp tokens.symm with ⟨front, behind, equal, frontTokens, _⟩
  -- The places of the front do not matter, so it may be exchanged for the one that is stuck.
  have same : (TokenStream.ofItems items).lexemes.map (·.token) =
      (Derivation.programLexemes derivation ++ (taken ++ found :: behind)).map (·.token) := by
    rw [equal, List.map_append, frontTokens, ← List.map_append]
    simp
  have read : (statements (TokenStream.ofItems items).lexemes).2.1 = .ok () := by
    rw [parse_eq] at parsed
    cases result : (statements (TokenStream.ofItems items).lexemes).2.1 with
    | error error =>
        rw [result] at parsed
        contradiction
    | ok done => rfl
  have readStuck := statements_eq_ok_of_tokens_eq same read
  rw [statements_of_stuckAt derivation stuck] at readStuck
  · contradiction
  · rintro empty rfl
    -- With nothing behind it, the token found would be the end of the stream.
    have lastToken := congrArg (Option.map Lexeme.token) last
    rw [← List.getLast?_map, same] at lastToken
    exact due empty (by simpa using lastToken)

/-- If a text is not a program, the error is about one of its tokens. The tokens before that one
are the front of a program, and together with it they are not. -/
theorem parseText_error_earliest (mode : Mode) (text : String) (error : SyntaxError)
    (failed : parseText mode text = .error error) :
    ∃ index found, (TokenStream.ofText mode text).lexemes[index]? = some found ∧
      error.About found ∧
      Viable ((TokenStream.ofText mode text).tokens.take index) ∧
      ¬ Viable ((TokenStream.ofText mode text).tokens.take (index + 1)) := by
  rcases exists_readTo_of_parse (TokenStream.ofText mode text) with
    ⟨read, rest, result, reading, stops, parsed⟩
  rcases exists_derivation_of_readTo reading with ⟨derivation, split, _⟩
  have closed : Closed (TokenStream.ofText mode text).lexemes := TokenStream.closed_ofItems _
  rw [split] at closed
  have closedRest := closed.of_append fun lexeme member =>
    (Derivation.program_token_ne derivation lexeme member).1
  rw [parseText, parsed] at failed
  cases stops with
  | finished finished => contradiction
  | failed due unread =>
      cases failed
      rcases exists_stuckAt_of_assignment closedRest unread with
        ⟨taken, found, behind, rfl, about, stuck⟩
      rw [← List.append_assoc] at split
      have notEnd : taken = [] → found.token ≠ .eof := by
        rintro rfl
        exact TokenStream.token_ne_eof split (by simpa [hasStatement] using due)
      refine ⟨(Derivation.programLexemes derivation ++ taken).length, found, ?_, about, ?_, ?_⟩
      · rw [split, List.getElem?_append_right (Nat.le_refl _), Nat.sub_self,
          List.getElem?_cons_zero]
      · rw [TokenStream.tokens, split, ← List.map_take, List.take_left]
        exact viable_of_completes derivation stuck.completes
      · rw [TokenStream.tokens, split, ← List.map_take, List.take_length_add_append]
        exact not_viable_of_stuckAt derivation stuck notEnd

/-- The magnitude of the least integer is a literal behind a sign, but not behind a difference. -/
theorem parseText_error_earliest_leastMagnitude :
    parseText .strict "x = (-9223372036854775808) - 9223372036854775808;" =
      .error ⟨.literalOutOfRange "9223372036854775808", ⟨29, 48⟩⟩ ∧
    ∃ index found, (TokenStream.ofText .strict
        "x = (-9223372036854775808) - 9223372036854775808;").lexemes[index]? = some found ∧
      SyntaxError.About ⟨.literalOutOfRange "9223372036854775808", ⟨29, 48⟩⟩ found ∧
      Viable ((TokenStream.ofText .strict
        "x = (-9223372036854775808) - 9223372036854775808;").tokens.take index) ∧
      ¬ Viable ((TokenStream.ofText .strict
        "x = (-9223372036854775808) - 9223372036854775808;").tokens.take (index + 1)) := by
  have failed : parseText .strict "x = (-9223372036854775808) - 9223372036854775808;" =
      .error ⟨.literalOutOfRange "9223372036854775808", ⟨29, 48⟩⟩ := by
    decide +kernel
  exact ⟨failed, parseText_error_earliest _ _ _ failed⟩

end Abacus
