import Abacus.Evaluation
import Abacus.Proofs.Derivation

/-! # The first failing node

Where an evaluation stops, told from the nodes of the tree alone. The nodes are gone through in
postorder, operands before their operator and left ones before right ones. A variable fails if
the store does not have it, and an operation fails if its exact result over the unbounded integers
does not fit. -/

namespace Abacus

namespace Token

/-- The exact value of an operand under a sign. -/
def signed : Token → Int → Int
  | .minus, number => -number
  | _, number => number

/-- The exact value of two operands, if the token joins operands. -/
def joined? : Token → Int → Int → Option Int
  | .plus, left, right => some (left + right)
  | .minus, left, right => some (left - right)
  | .star, left, right => some (left * right)
  | _, _, _ => none

end Token

namespace Expression

/-! ## Failing nodes -/

/-- The value over the unbounded integers, if every variable has one. -/
def unbounded? (store : Store) : Expression → Option Int
  | identifier name _ => (store.get? name).map Int64.toInt
  | integer value _ => some value.toInt
  | unary operator operand _ => (operand.unbounded? store).map operator.signed
  | binary operator left right _ =>
      (left.unbounded? store).bind fun leftNumber =>
        (right.unbounded? store).bind fun rightNumber => operator.joined? leftNumber rightNumber
  | nested inner _ => inner.unbounded? store

def postorder : Expression → List Expression
  | identifier name span => [.identifier name span]
  | integer value span => [.integer value span]
  | unary operator operand span => operand.postorder ++ [.unary operator operand span]
  | binary operator left right span =>
      left.postorder ++ (right.postorder ++ [.binary operator left right span])
  | nested inner span => inner.postorder ++ [.nested inner span]

/-- Whether the value of a node is known and does not fit. -/
def overflows (store : Store) (node : Expression) : Bool :=
  (node.unbounded? store).any fun number => decide (¬ Integer.Fits number)

def fails (store : Store) : Expression → Bool
  | identifier name _ => !store.contains name
  | integer _ _ => false
  | unary operator operand span => (unary operator operand span).overflows store
  | binary operator left right span => (binary operator left right span).overflows store
  | nested _ _ => false

def firstFailure? (store : Store) (tree : Expression) : Option Expression :=
  tree.postorder.find? (fails store)

/-- The error that a failing node is reported with. -/
def failure : Expression → EvalError
  | identifier name span => ⟨.undefinedVariable name, span⟩
  | node => ⟨.overflow, node.span⟩

/-- Signs stand on unary nodes and operators on binary ones. -/
def isArithmetic : Expression → Bool
  | identifier _ _ => true
  | integer _ _ => true
  | unary operator operand _ => operator.isSign && operand.isArithmetic
  | binary operator left right _ =>
      operator.isOperator && left.isArithmetic && right.isArithmetic
  | nested inner _ => inner.isArithmetic

/-! ## Evaluation stops there -/

theorem evalUnary_eq {operator : Token} (isSign : operator.isSign = true) (operand : Int64)
    (span : Span) :
    evalUnary operator operand span =
      orOverflow (Integer.ofInt? (operator.signed operand.toInt)) span := by
  rcases Token.eq_of_isSign isSign with rfl | rfl
  · rfl
  · have fits : Integer.ofInt? (Token.plus.signed operand.toInt) = some operand :=
      Integer.ofInt?_eq_some_iff.mpr rfl
    rw [fits]
    rfl

theorem evalBinary_eq {operator : Token} (isOperator : operator.isOperator = true)
    (left right : Int64) (span : Span) :
    ∃ number, operator.joined? left.toInt right.toInt = some number ∧
      evalBinary operator left right span = orOverflow (Integer.ofInt? number) span := by
  cases operator <;> first | contradiction | exact ⟨_, rfl, rfl⟩

/-- The outcome of an evaluation as the nodes tell it: the exact value if none of them fails, or
else the error of the first that does. -/
def Explained (store : Store) (tree : Expression) (nodes : List Expression) :
    Except EvalError Int64 → Prop
  | .ok value => nodes.find? (fails store) = none ∧ tree.unbounded? store = some value.toInt
  | .error error => ∃ node, nodes.find? (fails store) = some node ∧ error = node.failure

section Steps

variable {store : Store} {tree operand : Expression} {nodes further : List Expression}

theorem Explained.append_of_error {error : EvalError}
    (explained : Explained store operand nodes (.error error)) :
    Explained store tree (nodes ++ further) (.error error) := by
  rcases explained with ⟨node, found, rfl⟩
  exact ⟨node, by rw [List.find?_append, found, Option.some_or], rfl⟩

theorem Explained.append_of_ok {value : Int64} {outcome : Except EvalError Int64}
    (explained : Explained store operand nodes (.ok value))
    (behind : Explained store tree further outcome) :
    Explained store tree (nodes ++ further) outcome := by
  have found : (nodes ++ further).find? (fails store) = further.find? (fails store) := by
    rw [List.find?_append, explained.1, Option.none_or]
  cases outcome with
  | ok result => exact ⟨found.trans behind.1, behind.2⟩
  | error error =>
      rcases behind with ⟨node, first, same⟩
      exact ⟨node, found.trans first, same⟩

/-- An operation with known operands fails if its exact result does not fit. -/
theorem explained_operation {number : Int} (known : tree.unbounded? store = some number)
    (operation : tree.fails store = tree.overflows store)
    (failure : tree.failure = ⟨.overflow, tree.span⟩) :
    Explained store tree [tree] (orOverflow (Integer.ofInt? number) tree.span) := by
  by_cases fits : Integer.Fits number
  · have sound : tree.fails store = false := by
      rw [operation, overflows, known]
      simpa using fits
    cases checked : Integer.ofInt? number with
    | none => exact absurd fits (Integer.ofInt?_eq_none_iff.mp checked)
    | some value =>
        refine ⟨by simp [sound], ?_⟩
        rw [known, Integer.ofInt?_eq_some_iff.mp checked]
  · have failing : tree.fails store = true := by
      rw [operation, overflows, known]
      simpa using fits
    rw [Integer.ofInt?_eq_none_iff.mpr fits]
    exact ⟨tree, by simp [failing], failure.symm⟩

end Steps

theorem explained_eval {tree : Expression} (arithmetic : tree.isArithmetic = true)
    (store : Store) : Explained store tree tree.postorder (tree.eval store) := by
  induction tree with
  | identifier name span =>
      rw [eval]
      cases found : store.get? name with
      | some value => simp [Explained, postorder, fails, Store.contains, unbounded?, found]
      | none => simp [Explained, postorder, fails, Store.contains, failure, found]
  | integer value span => exact ⟨rfl, rfl⟩
  | unary operator operand span induction =>
      rw [isArithmetic, Bool.and_eq_true] at arithmetic
      have operandExplained := induction arithmetic.2
      rw [eval, postorder]
      cases evaluated : operand.eval store with
      | error error =>
          rw [evaluated] at operandExplained
          exact operandExplained.append_of_error
      | ok value =>
          rw [evaluated] at operandExplained
          have known : (unary operator operand span).unbounded? store =
              some (operator.signed value.toInt) := by
            rw [unbounded?, operandExplained.2, Option.map_some]
          simp only [evalUnary_eq arithmetic.1]
          exact operandExplained.append_of_ok (explained_operation known rfl rfl)
  | binary operator left right span leftInduction rightInduction =>
      rw [isArithmetic, Bool.and_eq_true, Bool.and_eq_true] at arithmetic
      rcases arithmetic with ⟨⟨isOperator, leftArithmetic⟩, rightArithmetic⟩
      have leftExplained := leftInduction leftArithmetic
      have rightExplained := rightInduction rightArithmetic
      rw [eval, postorder]
      cases leftEvaluated : left.eval store with
      | error error =>
          rw [leftEvaluated] at leftExplained
          exact leftExplained.append_of_error
      | ok leftValue =>
          rw [leftEvaluated] at leftExplained
          apply leftExplained.append_of_ok
          cases rightEvaluated : right.eval store with
          | error error =>
              rw [rightEvaluated] at rightExplained
              exact rightExplained.append_of_error
          | ok rightValue =>
              rw [rightEvaluated] at rightExplained
              rcases evalBinary_eq isOperator leftValue rightValue span with
                ⟨number, joined, operation⟩
              have known : (binary operator left right span).unbounded? store = some number := by
                rw [unbounded?, leftExplained.2, rightExplained.2]
                exact joined
              simp only [operation]
              exact rightExplained.append_of_ok (explained_operation known rfl rfl)
  | nested inner span induction =>
      have innerExplained := induction arithmetic
      rw [eval, postorder]
      cases evaluated : inner.eval store with
      | error error =>
          rw [evaluated] at innerExplained
          exact innerExplained.append_of_error
      | ok value =>
          rw [evaluated] at innerExplained
          exact innerExplained.append_of_ok ⟨rfl, innerExplained.2⟩

theorem eval_of_firstFailure? {tree node : Expression} {store : Store}
    (arithmetic : tree.isArithmetic = true) (first : tree.firstFailure? store = some node) :
    tree.eval store = .error node.failure := by
  have explained := explained_eval arithmetic store
  cases evaluated : tree.eval store with
  | ok value =>
      rw [evaluated] at explained
      rw [firstFailure?, explained.1] at first
      contradiction
  | error error =>
      rw [evaluated] at explained
      rcases explained with ⟨found, same, rfl⟩
      rw [firstFailure?, same] at first
      rw [Option.some.inj first]

theorem exists_firstFailure?_of_eval {tree : Expression} {store : Store} {error : EvalError}
    (arithmetic : tree.isArithmetic = true) (failed : tree.eval store = .error error) :
    ∃ node, tree.firstFailure? store = some node ∧ error = node.failure := by
  have explained := explained_eval arithmetic store
  rwa [failed] at explained

end Expression

theorem Derivation.isArithmetic_tree (derivation : Derivation layer) :
    derivation.tree.isArithmetic = true := by
  induction derivation with
  | term only induction => exact induction
  | sum left operator additive right leftInduction rightInduction =>
      have isOperator : operator.token.isOperator = true := by
        rcases additive with token | token <;> rw [token] <;> rfl
      simp [tree, Expression.isArithmetic, isOperator, leftInduction, rightInduction]
  | factor only induction => exact induction
  | product left star right leftInduction rightInduction =>
      simp [tree, Expression.isArithmetic, Token.isOperator, leftInduction, rightInduction]
  | parentheses opening inner closing induction => exact induction
  | signed sign isSign operand induction =>
      have signs : sign.token.isSign = true := by
        rcases isSign with token | token <;> rw [token] <;> rfl
      simp [tree, Expression.isArithmetic, signs, induction]
  | literal digits span value reads => rfl
  | least minus digits span reads => rfl
  | identifier name span => rfl

/-- A variable of a derived tree is one of the tokens. -/
theorem Derivation.mem_lexemes_of_identifier (derivation : Derivation layer) {name : String}
    {span : Span} (member : .identifier name span ∈ derivation.tree.postorder) :
    ⟨.ident name, span⟩ ∈ derivation.lexemes := by
  induction derivation with
  | term only induction => exact induction member
  | sum left operator additive right leftInduction rightInduction =>
      simp only [tree, Expression.postorder, List.mem_append, List.mem_singleton, reduceCtorEq,
        or_false] at member
      rcases member with member | member
      · exact List.mem_append_left _ (leftInduction member)
      · exact List.mem_append_right _ (List.mem_cons_of_mem _ (rightInduction member))
  | factor only induction => exact induction member
  | product left star right leftInduction rightInduction =>
      simp only [tree, Expression.postorder, List.mem_append, List.mem_singleton, reduceCtorEq,
        or_false] at member
      rcases member with member | member
      · exact List.mem_append_left _ (leftInduction member)
      · exact List.mem_append_right _ (List.mem_cons_of_mem _ (rightInduction member))
  | parentheses opening inner closing induction =>
      simp only [tree, Expression.postorder, List.mem_append, List.mem_singleton, reduceCtorEq,
        or_false] at member
      exact List.mem_cons_of_mem _ (List.mem_append_left _ (induction member))
  | signed sign isSign operand induction =>
      simp only [tree, Expression.postorder, List.mem_append, List.mem_singleton, reduceCtorEq,
        or_false] at member
      exact List.mem_cons_of_mem _ (induction member)
  | literal digits span value reads =>
      simp only [tree, Expression.postorder, List.mem_singleton, reduceCtorEq] at member
  | least minus digits span reads =>
      simp only [tree, Expression.postorder, List.mem_singleton, reduceCtorEq] at member
  | identifier other place =>
      cases List.mem_singleton.mp member
      exact List.mem_singleton_self _

/-! ## The first failing statement -/

theorem exists_of_evalStatements_error {statements : List Assignment} {store : Store}
    {error : EvalError} (failed : (evalStatements store statements).1 = .error error) :
    ∃ earlier failing later between, statements = earlier ++ failing :: later ∧
      evalStatements store earlier = (.ok (), between) ∧
      failing.value.eval between = .error error := by
  induction statements generalizing store with
  | nil => contradiction
  | cons first rest induction =>
      rw [evalStatements] at failed
      cases evaluated : first.eval store with
      | error cause =>
          rw [evaluated] at failed
          cases failed
          rw [Assignment.eval] at evaluated
          split at evaluated
          · next same =>
              cases evaluated
              exact ⟨[], first, rest, store, rfl, rfl, same⟩
          · contradiction
      | ok after =>
          rw [evaluated] at failed
          rcases induction failed with ⟨earlier, failing, later, between, rfl, before, fails⟩
          refine ⟨first :: earlier, failing, later, between, rfl, ?_, fails⟩
          rw [evalStatements, evaluated]
          exact before

end Abacus
