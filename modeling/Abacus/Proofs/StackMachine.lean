import Abacus.Proofs.ReversePolish

/-! # The stack machine

Reverse Polish order is a program for a machine with a stack of integers. Each word puts a value
on the stack or takes its operands off it. Run on an empty stack, the rendering of a tree leaves
the value of the tree and nothing else, or stops for the cause that the tree has no value. -/

namespace Abacus

namespace StackMachine

/-! ## Words and what they do -/

inductive Instruction
  | push (value : Int64)
  | load (name : String)
  | negate
  | add
  | subtract
  | multiply
deriving DecidableEq

/-- Why the machine stops before the end of its program. -/
inductive Fault
  /-- A value is undefined or does not fit. -/
  | stopped (cause : EvalCause)
  | missingOperand
  | unreadable (word : String)
deriving DecidableEq

def Instruction.ofWord? (word : String) : Option Instruction :=
  match word with
  | "neg" => some .negate
  | "+" => some .add
  | "-" => some .subtract
  | "*" => some .multiply
  | _ =>
      match Integer.ofText? word with
      | some value => some (.push value)
      | none => if isName word then some (.load word) else none

/-- Puts a result on the stack, where nothing means that it did not fit. -/
def pushed (result : Option Int64) (stack : List Int64) : Except Fault (List Int64) :=
  match result with
  | some value => .ok (value :: stack)
  | none => .error (.stopped .overflow)

/-- The right operand is on top of the stack. -/
def binary (operation : Int64 → Int64 → Option Int64) : List Int64 → Except Fault (List Int64)
  | right :: left :: stack => pushed (operation left right) stack
  | _ => .error .missingOperand

def step (store : Store) (stack : List Int64) : Instruction → Except Fault (List Int64)
  | .push value => .ok (value :: stack)
  | .load name =>
      match store.get? name with
      | some value => .ok (value :: stack)
      | none => .error (.stopped (.undefinedVariable name))
  | .negate =>
      match stack with
      | operand :: stack => pushed (Integer.neg? operand) stack
      | [] => .error .missingOperand
  | .add => binary Integer.add? stack
  | .subtract => binary Integer.sub? stack
  | .multiply => binary Integer.mul? stack

/-- Runs words from left to right until one fails. -/
def run (store : Store) (stack : List Int64) : List String → Except Fault (List Int64)
  | [] => .ok stack
  | word :: rest =>
      match Instruction.ofWord? word with
      | none => .error (.unreadable word)
      | some instruction =>
          match step store stack instruction with
          | .error fault => .error fault
          | .ok after => run store after rest

/-- Runs the words between the blanks of a text on an empty stack. -/
def runText (store : Store) (text : String) : Except Fault (List Int64) :=
  run store [] ((text.toList.splitOn ' ').map String.ofList)

/-! ## Reading a word -/

theorem ofWord?_text (value : Int64) :
    Instruction.ofWord? (Integer.text value) = some (.push value) := by
  unfold Instruction.ofWord?
  split
  · next equal =>
      exact absurd equal (Expression.text_ne_of_ofText?_eq_none (by decide +kernel) value)
  · next equal =>
      exact absurd equal (Expression.text_ne_of_ofText?_eq_none (by decide +kernel) value)
  · next equal =>
      exact absurd equal (Expression.text_ne_of_ofText?_eq_none (by decide +kernel) value)
  · next equal =>
      exact absurd equal (Expression.text_ne_of_ofText?_eq_none (by decide +kernel) value)
  · rw [Integer.ofText?_text]

theorem ofWord?_name {name : String} (isName : isName name = true) (other : name ≠ "neg") :
    Instruction.ofWord? name = some (.load name) := by
  unfold Instruction.ofWord?
  split
  · contradiction
  · exact absurd isName (by decide)
  · exact absurd isName (by decide)
  · exact absurd isName (by decide)
  · rw [Expression.ofText?_eq_none_of_isName isName]
    exact if_pos isName

/-! ## Running the words of a tree -/

section Steps

variable (store : Store) (stack : List Int64) (rest : List String)

/-- How the machine goes on behind the words of a tree. -/
def continued : Except EvalError Int64 → Except Fault (List Int64)
  | .ok value => run store (value :: stack) rest
  | .error error => .error (.stopped error.cause)

theorem run_text (value : Int64) :
    run store stack (Integer.text value :: rest) = run store (value :: stack) rest := by
  rw [run, ofWord?_text]
  rfl

theorem run_name {name : String} (isName : isName name = true) (other : name ≠ "neg")
    (span : Span) :
    run store stack (name :: rest) =
      continued store stack rest ((Expression.identifier name span).eval store) := by
  rw [run, ofWord?_name isName other, Expression.eval]
  simp only [step]
  cases store.get? name <;> rfl

/-- A word that puts a checked result on the stack stops where an evaluation reports it. -/
theorem run_of_step {word : String} {instruction : Instruction} {before : List Int64}
    {result : Option Int64} (reads : Instruction.ofWord? word = some instruction)
    (stepped : step store before instruction = pushed result stack) (span : Span) :
    run store before (word :: rest) = continued store stack rest (orOverflow result span) := by
  rw [run, reads]
  simp only [stepped]
  cases result <;> rfl

theorem run_negate (operand : Int64) (span : Span) :
    run store (operand :: stack) ("neg" :: rest) =
      continued store stack rest (evalUnary .minus operand span) := by
  have reads : Instruction.ofWord? "neg" = some .negate := rfl
  exact run_of_step store stack rest reads rfl span

theorem run_operator {operator : Token} (isOperator : operator.isOperator = true)
    (left right : Int64) (span : Span) :
    run store (right :: left :: stack) (operator.text :: rest) =
      continued store stack rest (evalBinary operator left right span) := by
  cases operator with
  | plus =>
      have reads : Instruction.ofWord? "+" = some .add := rfl
      exact run_of_step store stack rest reads rfl span
  | minus =>
      have reads : Instruction.ofWord? "-" = some .subtract := rfl
      exact run_of_step store stack rest reads rfl span
  | star =>
      have reads : Instruction.ofWord? "*" = some .multiply := rfl
      exact run_of_step store stack rest reads rfl span
  | _ => contradiction

end Steps

/-- The words of a tree put its value on top of any stack, before any words that follow, or stop
the machine for the cause that it has none. -/
theorem run_words_append (store : Store) {tree : Expression}
    (arithmetic : tree.isArithmetic = true)
    (named : ∀ name ∈ tree.names, isName name = true ∧ name ≠ "neg") (stack : List Int64)
    (rest : List String) :
    run store stack (tree.words ++ rest) = continued store stack rest (tree.eval store) := by
  -- The operator of a node follows the words of its operands, so these are run before more words.
  induction tree generalizing stack rest with
  | identifier name span =>
      have ⟨isName, other⟩ := named name (List.mem_singleton_self name)
      exact run_name store stack rest isName other span
  | integer value span => exact run_text store stack rest value
  | unary operator operand span induction =>
      rw [Expression.isArithmetic, Bool.and_eq_true] at arithmetic
      have operandRun := induction arithmetic.2 named
      rcases Token.eq_of_isSign arithmetic.1 with rfl | rfl
      · rw [Expression.words, List.append_assoc, operandRun, Expression.eval]
        cases operand.eval store with
        | error error => rfl
        | ok value => exact run_negate store stack rest value span
      · change run store stack (operand.words ++ rest) = _
        rw [operandRun, Expression.eval]
        cases operand.eval store <;> rfl
  | binary operator left right span leftInduction rightInduction =>
      rw [Expression.isArithmetic, Bool.and_eq_true, Bool.and_eq_true] at arithmetic
      rcases arithmetic with ⟨⟨isOperator, leftArithmetic⟩, rightArithmetic⟩
      have leftRun := leftInduction leftArithmetic fun name found =>
        named name (List.mem_append_left _ found)
      have rightRun := rightInduction rightArithmetic fun name found =>
        named name (List.mem_append_right _ found)
      rw [Expression.words, List.append_assoc, List.append_assoc, leftRun, Expression.eval]
      cases left.eval store with
      | error error => rfl
      | ok leftValue =>
          rw [continued, rightRun]
          cases right.eval store with
          | error error => rfl
          | ok rightValue =>
              exact run_operator store stack rest isOperator leftValue rightValue span
  | nested inner span induction => exact induction arithmetic named stack rest

end StackMachine

/-- Where no variable has the name of the minus sign, the rendering of a tree in reverse Polish
order, run on an empty stack, leaves the value of the tree and nothing else, or stops for the cause
that the tree has none. So no word ever lacks an operand. -/
theorem runText_reversePolish (tree : Expression) (arithmetic : tree.isArithmetic = true)
    (named : ∀ name ∈ tree.names, isName name = true ∧ name ≠ "neg") (store : Store) :
    StackMachine.runText store tree.reversePolish =
      match tree.eval store with
      | .ok value => .ok [value]
      | .error error => .error (.stopped error.cause) := by
  have split := Expression.splitOn_reversePolish arithmetic fun name found => (named name found).1
  have words : (tree.reversePolish.toList.splitOn ' ').map String.ofList = tree.words := by
    rw [split, List.map_map]
    simp [Function.comp_def]
  have ran := StackMachine.run_words_append store arithmetic named [] []
  rw [List.append_nil] at ran
  rw [StackMachine.runText, words, ran]
  cases tree.eval store <;> rfl

/-- The tree of `-(a - b) * +-5` with `-5` as one literal. -/
def signedProduct : Expression :=
  .binary .star
    (.unary .minus
      (.nested (.binary .minus (.identifier "a" ⟨2, 3⟩) (.identifier "b" ⟨6, 7⟩) ⟨2, 7⟩) ⟨1, 8⟩)
      ⟨0, 8⟩)
    (.unary .plus (.integer (-5) ⟨12, 13⟩) ⟨11, 13⟩) ⟨0, 13⟩

theorem runText_reversePolish_signedProduct :
    signedProduct.isArithmetic = true ∧
    (∀ name ∈ signedProduct.names, isName name = true ∧ name ≠ "neg") ∧
    signedProduct.reversePolish = "a b - neg -5 *" ∧
    StackMachine.runText ((Store.empty.set "a" 2).set "b" 5) "a b - neg -5 *" = .ok [-15] ∧
    StackMachine.runText (Store.empty.set "a" 2) "a b - neg -5 *" =
      .error (.stopped (.undefinedVariable "b")) ∧
    StackMachine.runText ((Store.empty.set "a" Int64.minValue).set "b" 0) "a b - neg -5 *" =
      .error (.stopped .overflow) := by
  have arithmetic : signedProduct.isArithmetic = true := by decide
  have named : ∀ name ∈ signedProduct.names, isName name = true ∧ name ≠ "neg" := by decide
  have text : signedProduct.reversePolish = "a b - neg -5 *" := by decide +kernel
  have runs := runText_reversePolish signedProduct arithmetic named
  rw [text] at runs
  have evaluated : signedProduct.eval ((Store.empty.set "a" 2).set "b" 5) = .ok (-15) := by
    decide +kernel
  have undefined : signedProduct.eval (Store.empty.set "a" 2) =
      .error ⟨.undefinedVariable "b", ⟨6, 7⟩⟩ := by decide +kernel
  have overflow : signedProduct.eval ((Store.empty.set "a" Int64.minValue).set "b" 0) =
      .error ⟨.overflow, ⟨0, 8⟩⟩ := by decide +kernel
  refine ⟨arithmetic, named, text, ?_, ?_, ?_⟩
  · rw [runs, evaluated]
  · rw [runs, undefined]
  · rw [runs, overflow]

end Abacus
