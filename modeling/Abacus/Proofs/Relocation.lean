import Abacus.Execution
import Abacus.Proofs.Derivation

/-! # Relocations

A relocation gives every span another place and respects how spans are put
together. Reading and evaluating never look at places, so they commute with every
relocation. Moving by an amount is a relocation, and so is forgetting all places:
what agrees after that agrees up to spans. -/

namespace Abacus

open Grammar

structure Relocation where
  move : Span → Span
  move_spanning : ∀ first last, move (spanning first last) = spanning (move first) (move last)

namespace Relocation

def shift (amount : Nat) : Relocation where
  move span := ⟨span.start + amount, span.stop + amount⟩
  move_spanning _ _ := rfl

def erase : Relocation where
  move _ := .point 0
  move_spanning _ _ := rfl

variable (relocation : Relocation)

def lexeme (lexeme : Lexeme) : Lexeme := ⟨lexeme.token, relocation.move lexeme.span⟩

def expression : Expression → Expression
  | .identifier name span => .identifier name (relocation.move span)
  | .integer value span => .integer value (relocation.move span)
  | .unary operator operand span =>
      .unary operator (expression operand) (relocation.move span)
  | .binary operator left right span =>
      .binary operator (expression left) (expression right) (relocation.move span)
  | .nested inner span => .nested (expression inner) (relocation.move span)

def assignment (assignment : Assignment) : Assignment :=
  ⟨assignment.name, relocation.move assignment.nameSpan, relocation.expression assignment.value,
    relocation.move assignment.span⟩

def program (program : Program) : Program :=
  ⟨program.statements.map relocation.assignment, relocation.move program.span⟩

/-- An error that has no token to point at has no place to move. -/
def syntaxError (error : SyntaxError) : SyntaxError :=
  match error.cause with
  | .unexpectedEnd => error
  | cause => ⟨cause, relocation.move error.span⟩

def evalError (error : EvalError) : EvalError :=
  ⟨error.cause, relocation.move error.span⟩

def item : Item → Item
  | .read lexeme => .read (relocation.lexeme lexeme)
  | .failed error => .failed ⟨error.cause, relocation.move error.span⟩

/-- The failure at its new place, and in another source. -/
def failure (source : Source) : Failure → Failure
  | .parsing _ error => .parsing source ⟨error.cause, relocation.move error.span⟩
  | .evaluation _ error => .evaluation source (relocation.evalError error)
  | .access fault => .access fault

def outcome (value : α → β) : Outcome α input → Outcome β (input.map relocation.lexeme)
  | .done read rest shorter =>
      .done (value read) (rest.map relocation.lexeme) (by simpa using shorter)
  | .failed error rest => .failed (relocation.syntaxError error) (rest.map relocation.lexeme)

@[simp] theorem token_lexeme (lexeme : Lexeme) :
    (relocation.lexeme lexeme).token = lexeme.token := rfl

@[simp] theorem span_lexeme (lexeme : Lexeme) :
    (relocation.lexeme lexeme).span = relocation.move lexeme.span := rfl

@[simp] theorem span_expression (tree : Expression) :
    (relocation.expression tree).span = relocation.move tree.span := by
  cases tree <;> rfl

@[simp] theorem lexeme_item (item : Item) :
    (relocation.item item).lexeme = relocation.lexeme item.lexeme := by
  cases item <;> rfl

@[simp] theorem isEnd_item (item : Item) : (relocation.item item).isEnd = item.isEnd := by
  match item with
  | .read ⟨token, span⟩ => cases token <;> rfl
  | .failed error => rfl

/-- Tokens are what is left of lexemes when all places are forgotten. -/
theorem erased_eq_of_tokens_eq {first second : List Lexeme}
    (same : first.map (·.token) = second.map (·.token)) :
    first.map erase.lexeme = second.map erase.lexeme := by
  have placed := congrArg (List.map fun token => (⟨token, .point 0⟩ : Lexeme)) same
  rwa [List.map_map, List.map_map] at placed

theorem syntaxError_of_ne {error : SyntaxError} (found : error.cause ≠ .unexpectedEnd) :
    relocation.syntaxError error = ⟨error.cause, relocation.move error.span⟩ := by
  unfold syntaxError
  split
  · contradiction
  · rfl

@[simp] theorem syntaxError_unexpected (found : Lexeme) (expected : List String) :
    relocation.syntaxError (.unexpected found expected) =
      .unexpected (relocation.lexeme found) expected := rfl

@[simp] theorem syntaxError_unexpectedEnd :
    relocation.syntaxError .unexpectedEnd = .unexpectedEnd := rfl

end Relocation

/-! ## Reading -/

namespace Grammar

variable (relocation : Relocation)

theorem expect_relocated (token : Token) (input : List Lexeme) :
    expect token (input.map relocation.lexeme) =
      relocation.outcome relocation.move (expect token input) := by
  cases input with
  | nil => rfl
  | cons lexeme rest =>
      change expect token (relocation.lexeme lexeme :: rest.map relocation.lexeme) = _
      by_cases same : lexeme.token = token
      · simp [expect, same, Relocation.outcome, Relocation.lexeme]
        rfl
      · simp [expect, same, Relocation.outcome]

theorem literal_relocated (input : List Lexeme) :
    literal (input.map relocation.lexeme) =
      relocation.outcome relocation.expression (literal input) := by
  match input with
  | [] => rfl
  | ⟨token, span⟩ :: rest =>
      cases token <;> try rfl
      case int digits =>
        change literal (⟨.int digits, relocation.move span⟩ :: rest.map relocation.lexeme) = _
        simp only [literal]
        cases Integer.ofText? digits <;> rfl

theorem leastLiteral?_relocated (input : List Lexeme) :
    leastLiteral? (input.map relocation.lexeme) =
      (leastLiteral? input).map fun (least, rest) =>
        (relocation.expression least, rest.map relocation.lexeme) := by
  match input with
  | [] => rfl
  | [⟨token, span⟩] => cases token <;> rfl
  | ⟨token, span⟩ :: ⟨second, secondSpan⟩ :: rest =>
      cases token <;> try rfl
      case minus =>
        cases second <;> try rfl
        case int digits =>
          have moved := relocation.move_spanning span secondSpan
          simp only [spanning] at moved
          by_cases isLeast : isLeastMagnitude digits = true
          · simp [leastLiteral?, Relocation.lexeme, isLeast, Relocation.expression, moved]
          · simp [leastLiteral?, Relocation.lexeme, isLeast]

theorem underSign_relocated (sign : Lexeme) {input : List Lexeme}
    (outcome : Outcome Expression input) :
    underSign (relocation.lexeme sign) (relocation.outcome relocation.expression outcome) =
      relocation.outcome relocation.expression (underSign sign outcome) := by
  cases outcome with
  | failed error rest => rfl
  | done operand rest shorter =>
      simp [underSign, Relocation.outcome, Relocation.expression, relocation.move_spanning,
        Relocation.lexeme]
      rfl

theorem expression_relocated (layer : Layer) (input : List Lexeme) :
    expression layer (input.map relocation.lexeme) =
      relocation.outcome relocation.expression (expression layer input) := by
  fun_induction expression layer input with
  | case1 layer input tighter operand error rest read induction =>
      rw [read] at induction
      exact expression_failed operand induction
  | case2 layer input tighter operand left shorter read induction =>
      rw [read] at induction
      rcases expression_alone operand ⟨_, induction⟩ (by simp) with ⟨_, equal⟩
      exact equal
  | case3 layer input tighter operand left operator rest shorter readLeft joins error final
      readRight leftInduction rightInduction =>
      rw [readLeft] at leftInduction
      rw [readRight] at rightInduction
      exact expression_joined_failed operand ⟨_, leftInduction⟩ joins rightInduction
  | case4 layer input tighter operand left operator rest shorter readLeft joins right
      final further readRight leftInduction rightInduction =>
      rw [readLeft] at leftInduction
      rw [readRight] at rightInduction
      rcases expression_joined operand ⟨_, leftInduction⟩ joins ⟨_, rightInduction⟩ with ⟨_, equal⟩
      rw [equal]
      simp [Relocation.outcome, Relocation.expression, relocation.move_spanning]
  | case5 layer input tighter operand left operator rest shorter read notJoins induction =>
      rw [read] at induction
      have stops : layer.joins operator.token = false := by simpa using notJoins
      rcases expression_alone operand ⟨_, induction⟩ (by simp [stops]) with ⟨_, equal⟩
      exact equal
  | case6 layer isFactor =>
      cases eq_factor_of_operand? isFactor
      exact expression_nil
  | case7 layer isFactor first rest opens error final read induction =>
      cases eq_factor_of_operand? isFactor
      rw [read] at induction
      exact expression_inner_failed (relocation.lexeme first) opens induction
  | case8 layer isFactor first rest opens inner middle shorter read error final unclosed
      induction =>
      cases eq_factor_of_operand? isFactor
      rw [read] at induction
      have moved := expect_relocated relocation .rightParen middle
      rw [unclosed] at moved
      exact expression_unclosed (relocation.lexeme first) opens ⟨_, induction⟩ moved
  | case9 layer isFactor first rest opens inner middle shorter read closing final further
      closed induction =>
      cases eq_factor_of_operand? isFactor
      rw [read] at induction
      have moved := expect_relocated relocation .rightParen middle
      rw [closed] at moved
      rcases expression_parentheses (relocation.lexeme first) opens ⟨_, induction⟩ ⟨_, moved⟩ with
        ⟨_, equal⟩
      refine equal.trans ?_
      simp [Relocation.outcome, Relocation.expression, relocation.move_spanning]
  | case10 layer isFactor first rest digits token =>
      cases eq_factor_of_operand? isFactor
      have moved := literal_relocated relocation (first :: rest)
      exact (expression_int (relocation.lexeme first) token _).trans moved
  | case11 layer isFactor first rest name token =>
      cases eq_factor_of_operand? isFactor
      rcases expression_ident (relocation.lexeme first) token (rest.map relocation.lexeme) with
        ⟨_, equal⟩
      exact equal
  | case12 layer isFactor first rest isSign least final found =>
      cases eq_factor_of_operand? isFactor
      have moved := leastLiteral?_relocated relocation (first :: rest)
      rw [found] at moved
      rcases expression_least moved with ⟨_, equal⟩
      exact equal
  | case13 layer isFactor first rest isSign absent _ _ _ induction =>
      cases eq_factor_of_operand? isFactor
      have moved := leastLiteral?_relocated relocation (first :: rest)
      rw [absent] at moved
      rw [← underSign_relocated, ← induction]
      exact expression_sign (relocation.lexeme first) isSign moved
  | case14 layer isFactor first rest notSign notOpening notInt notIdent =>
      cases eq_factor_of_operand? isFactor
      exact expression_unexpected (relocation.lexeme first) notOpening notInt notIdent notSign _

theorem assignment_relocated (input : List Lexeme) :
    assignment (input.map relocation.lexeme) =
      relocation.outcome relocation.assignment (assignment input) := by
  match input with
  | [] => rfl
  | ⟨token, span⟩ :: rest =>
      cases token <;> try rfl
      case ident name =>
        change assignment (⟨.ident name, relocation.move span⟩ :: rest.map relocation.lexeme) = _
        simp only [assignment]
        rw [expect_relocated]
        cases expect .equals rest with
        | failed error rest => rfl
        | done equals behindEquals shorter =>
            simp only [Relocation.outcome]
            rw [expression_relocated]
            cases expression .sum behindEquals with
            | failed error rest => rfl
            | done value behindValue shorter =>
                simp only [Relocation.outcome]
                rw [expect_relocated]
                cases expect .semicolon behindValue with
                | failed error rest => rfl
                | done semicolon final shorter =>
                    simp only [Relocation.outcome, Relocation.assignment,
                      relocation.move_spanning]
                    rfl

theorem hasStatement_relocated (input : List Lexeme) :
    hasStatement (input.map relocation.lexeme) = hasStatement input := by
  match input with
  | [] => rfl
  | [_] => rfl
  | _ :: _ :: _ => rfl

theorem statements_relocated (input : List Lexeme) :
    statements (input.map relocation.lexeme) =
      ((statements input).1.map relocation.assignment,
        (statements input).2.1.mapError relocation.syntaxError,
        (statements input).2.2.map relocation.lexeme) := by
  fun_induction statements input with
  | case1 input due error rest read =>
      rw [statements, hasStatement_relocated, if_pos due, assignment_relocated, read]
      rfl
  | case2 input due first rest shorter read further result left equal induction =>
      rw [equal] at induction
      rw [statements, hasStatement_relocated, if_pos due, assignment_relocated, read]
      simp only [Relocation.outcome, induction, List.map_cons]
  | case3 input finished =>
      rw [statements, hasStatement_relocated, if_neg finished]
      rfl

end Grammar

/-! ## Evaluating -/

section Evaluating

variable (relocation : Relocation)

theorem orOverflow_relocated (value : Option Int64) (span : Span) :
    orOverflow value (relocation.move span) =
      (orOverflow value span).mapError relocation.evalError := by
  cases value <;> rfl

theorem evalUnary_relocated (operator : Token) (operand : Int64) (span : Span) :
    evalUnary operator operand (relocation.move span) =
      (evalUnary operator operand span).mapError relocation.evalError := by
  cases operator <;> first | exact orOverflow_relocated relocation _ span | rfl

theorem evalBinary_relocated (operator : Token) (left right : Int64) (span : Span) :
    evalBinary operator left right (relocation.move span) =
      (evalBinary operator left right span).mapError relocation.evalError := by
  cases operator <;> first | exact orOverflow_relocated relocation _ span | rfl

theorem Expression.eval_relocated (store : Store) (tree : Expression) :
    (relocation.expression tree).eval store =
      (tree.eval store).mapError relocation.evalError := by
  induction tree with
  | identifier name span =>
      simp only [Relocation.expression, eval]
      cases store.get? name <;> rfl
  | integer value span => rfl
  | unary operator operand span induction =>
      simp only [Relocation.expression, eval, induction]
      cases operand.eval store with
      | error error => rfl
      | ok value => exact evalUnary_relocated relocation operator value span
  | binary operator left right span leftInduction rightInduction =>
      simp only [Relocation.expression, eval, leftInduction, rightInduction]
      cases left.eval store with
      | error error => rfl
      | ok leftValue =>
          cases right.eval store with
          | error error => rfl
          | ok rightValue =>
              exact evalBinary_relocated relocation operator leftValue rightValue span
  | nested inner span induction => exact induction

theorem Assignment.eval_relocated (store : Store) (assignment : Assignment) :
    (relocation.assignment assignment).eval store =
      (assignment.eval store).mapError relocation.evalError := by
  simp only [Assignment.eval, Relocation.assignment, Expression.eval_relocated]
  cases assignment.value.eval store <;> rfl

theorem evalStatements_relocated (store : Store) (statements : List Assignment) :
    evalStatements store (statements.map relocation.assignment) =
      ((evalStatements store statements).1.mapError relocation.evalError,
        (evalStatements store statements).2) := by
  induction statements generalizing store with
  | nil => rfl
  | cons assignment rest induction =>
      simp only [List.map_cons, evalStatements, Assignment.eval_relocated]
      cases assignment.eval store with
      | error error => rfl
      | ok after => exact induction after

end Evaluating

end Abacus
