import Abacus.Proofs.Derivation

/-! # The end of a stream

Every stream ends with a token of its own, and no part of a program contains that
token. So reading never gets past it: whatever is read from a stream leaves it ended,
and wherever reading fails there is a token to name. -/

namespace Abacus

open Grammar

namespace Grammar

/-- The last token is the end of the source. -/
def Closed (input : List Lexeme) : Prop :=
  ∃ stop, input.getLast? = some ⟨.eof, stop⟩

theorem Closed.of_append {taken rest : List Lexeme} (closed : Closed (taken ++ rest))
    (noEnd : ∀ lexeme ∈ taken, lexeme.token ≠ .eof) : Closed rest := by
  rcases closed with ⟨stop, last⟩
  rw [List.getLast?_append] at last
  cases lastRest : rest.getLast? with
  | none =>
      rw [lastRest, Option.none_or] at last
      exact absurd rfl (noEnd _ (List.mem_of_getLast? last))
  | some lexeme =>
      rw [lastRest, Option.some_or, Option.some.injEq] at last
      exact ⟨stop, lastRest.trans (congrArg some last)⟩

theorem Closed.eq_of_not_hasStatement {input : List Lexeme} (closed : Closed input)
    (finished : hasStatement input = false) : ∃ stop, input = [⟨.eof, stop⟩] := by
  rcases closed with ⟨stop, last⟩
  match input with
  | [] => simp at last
  | [lexeme] => exact ⟨stop, by simpa using last⟩
  | first :: second :: rest => simp [hasStatement] at finished

end Grammar

theorem TokenStream.closed_ofItems (items : List Item) :
    Closed (TokenStream.ofItems items).lexemes := by
  simp only [ofItems, closed]
  split
  · next stop last => exact ⟨stop, last⟩
  · next last _ _ => exact ⟨.point last.span.stop, by simp⟩
  · exact ⟨.point 0, rfl⟩

namespace Derivation

/-- Neither the end of the source nor a place where the lexer gave up is ever derived. -/
theorem token_ne (derivation : Derivation layer) {lexeme : Lexeme}
    (member : lexeme ∈ derivation.lexemes) :
    lexeme.token ≠ .eof ∧ lexeme.token ≠ .malformed := by
  induction derivation with
  | term only induction => exact induction member
  | sum left operator additive right leftInduction rightInduction =>
      rcases List.mem_append.mp member with member | member
      · exact leftInduction member
      · rcases List.mem_cons.mp member with rfl | member
        · rcases additive with token | token <;> simp [token]
        · exact rightInduction member
  | factor only induction => exact induction member
  | product left star right leftInduction rightInduction =>
      rcases List.mem_append.mp member with member | member
      · exact leftInduction member
      · rcases List.mem_cons.mp member with rfl | member
        · simp
        · exact rightInduction member
  | parentheses opening inner closing induction =>
      rcases List.mem_cons.mp member with rfl | member
      · simp
      · rcases List.mem_append.mp member with member | member
        · exact induction member
        · simp [List.mem_singleton.mp member]
  | signed sign isSign operand induction =>
      rcases List.mem_cons.mp member with rfl | member
      · rcases isSign with token | token <;> simp [token]
      · exact induction member
  | literal digits span value reads => simp [List.mem_singleton.mp member]
  | least minus digits span reads =>
      rcases List.mem_cons.mp member with rfl | member
      · simp
      · simp [List.mem_singleton.mp member]
  | identifier name span => simp [List.mem_singleton.mp member]

theorem Statement.token_ne (statement : Statement) {lexeme : Lexeme}
    (member : lexeme ∈ statement.lexemes) :
    lexeme.token ≠ .eof ∧ lexeme.token ≠ .malformed := by
  rcases List.mem_cons.mp member with rfl | member
  · simp
  · rcases List.mem_cons.mp member with rfl | member
    · simp
    · rcases List.mem_append.mp member with member | member
      · exact statement.value.token_ne member
      · simp [List.mem_singleton.mp member]

theorem program_token_ne (statements : List Statement) :
    ∀ lexeme ∈ programLexemes statements, lexeme.token ≠ .eof ∧ lexeme.token ≠ .malformed := by
  intro lexeme member
  rcases List.mem_flatMap.mp member with ⟨statement, _, member⟩
  exact statement.token_ne member

end Derivation

/-! ## Reading never runs out of tokens -/

namespace Grammar

theorem Closed.of_cons {first : Lexeme} {rest : List Lexeme} (closed : Closed (first :: rest))
    (notEnd : first.token ≠ .eof) : Closed rest := by
  have joined : Closed ([first] ++ rest) := closed
  apply joined.of_append
  intro lexeme member
  rw [List.mem_singleton.mp member]
  exact notEnd

theorem Closed.of_expect {token : Token} {input rest : List Lexeme} {span : Span} {shorter}
    (closed : Closed input) (notEnd : token ≠ .eof)
    (found : expect token input = .done span rest shorter) : Closed rest := by
  rw [eq_of_expect_eq_done found] at closed
  exact closed.of_cons notEnd

theorem Closed.of_expression {layer : Layer} {input rest : List Lexeme} {tree : Expression}
    {shorter}
    (closed : Closed input) (read : expression layer input = .done tree rest shorter) :
    Closed rest := by
  rcases exists_derivation_of_expression read with ⟨derivation, rfl, _⟩
  apply closed.of_append
  intro lexeme member
  exact (derivation.token_ne member).1

end Grammar

/-- A failure names the token it is about. -/
def Outcome.Located : Outcome α input → Prop
  | done _ _ _ => True
  | failed error _ => error.cause ≠ .unexpectedEnd

namespace Grammar

theorem Closed.ne_nil {input : List Lexeme} (closed : Closed input) : input ≠ [] := by
  rcases closed with ⟨stop, last⟩
  intro empty
  simp [empty] at last

theorem located_expect {input : List Lexeme} (closed : Closed input) (token : Token) :
    (expect token input).Located := by
  match input with
  | [] => exact absurd rfl closed.ne_nil
  | lexeme :: rest =>
      by_cases same : lexeme.token = token
      · simp [expect, same, Outcome.Located]
      · simp [expect, same, Outcome.Located, SyntaxError.unexpected]

theorem located_literal {input : List Lexeme} (closed : Closed input) :
    (literal input).Located := by
  match input with
  | [] => exact absurd rfl closed.ne_nil
  | ⟨token, span⟩ :: rest =>
      cases token with
      | int digits =>
          simp only [literal]
          split <;> simp [Outcome.Located]
      | _ => simp [literal, Outcome.Located, SyntaxError.unexpected]

theorem located_underSign {input : List Lexeme} {outcome : Outcome Expression input}
    (located : outcome.Located) (sign : Lexeme) : (underSign sign outcome).Located := by
  cases outcome with
  | done operand rest shorter => trivial
  | failed error rest => exact located

theorem located_expression (layer : Layer) {input : List Lexeme} (closed : Closed input) :
    (expression layer input).Located := by
  fun_induction expression layer input with
  | case1 layer input tighter operand error rest read induction =>
      rw [read] at induction
      exact induction closed
  | case2 => trivial
  | case3 layer input tighter operand left operator rest shorter readLeft joins error final
      readRight leftInduction rightInduction =>
      rw [readRight] at rightInduction
      apply rightInduction
      apply (closed.of_expression readLeft).of_cons
      intro isEnd
      rw [isEnd] at joins
      cases layer <;> contradiction
  | case4 => trivial
  | case5 => trivial
  | case6 => exact absurd rfl closed.ne_nil
  | case7 layer isFactor first rest opens error final read induction =>
      rw [read] at induction
      exact induction (closed.of_cons (by simp [opens]))
  | case8 layer isFactor first rest opens inner middle shorter read error final unclosed
      induction =>
      have closedRest := closed.of_cons (by simp [opens])
      have located := located_expect (closedRest.of_expression read) .rightParen
      rw [unclosed] at located
      exact located
  | case9 => trivial
  | case10 layer isFactor first rest digits token => exact located_literal closed
  | case11 => trivial
  | case12 => trivial
  | case13 layer isFactor first rest isSign absent _ _ _ induction =>
      apply located_underSign
      apply induction
      apply closed.of_cons
      intro isEnd
      rw [isEnd] at isSign
      contradiction
  | case14 layer isFactor first rest notSign notOpening notInt notIdent =>
      exact SyntaxCause.noConfusion

theorem located_assignment {input : List Lexeme} (closed : Closed input) :
    (assignment input).Located := by
  unfold assignment
  split
  · exact absurd rfl closed.ne_nil
  · next name nameSpan rest =>
      have closedRest := closed.of_cons (by simp)
      have equalsLocated := located_expect closedRest .equals
      split
      · next failed =>
          rw [failed] at equalsLocated
          exact equalsLocated
      · next equals behindEquals _ foundEquals =>
          have isCons := eq_of_expect_eq_done foundEquals
          rw [isCons] at closedRest
          have closedValue := closedRest.of_cons (by simp)
          have valueLocated := located_expression .sum closedValue
          split
          · next failed =>
              rw [failed] at valueLocated
              exact valueLocated
          · next value behindValue _ foundValue =>
              have semicolonLocated :=
                located_expect (closedValue.of_expression foundValue) .semicolon
              split
              · next failed =>
                  rw [failed] at semicolonLocated
                  exact semicolonLocated
              · trivial
  · exact SyntaxCause.noConfusion

end Grammar

end Abacus
