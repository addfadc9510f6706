import Abacus.EvalError
import Abacus.Program
import Abacus.Store

/-! # Evaluation

The value of an expression in a store, and the effect of assignments on it. Left
operands come before right ones and both before their operator, so the first
failing node in that order is the one reported. -/

namespace Abacus

/-- The result of a checked operation at a node, where nothing means that it did not
fit. -/
def orOverflow (value : Option Int64) (span : Span) : Except EvalError Int64 :=
  match value with
  | some value => .ok value
  | none => .error ⟨.overflow, span⟩

def evalUnary (operator : Token) (operand : Int64) (span : Span) : Except EvalError Int64 :=
  match operator with
  | .minus => orOverflow (Integer.neg? operand) span
  | _ => .ok operand

def evalBinary (operator : Token) (left right : Int64) (span : Span) : Except EvalError Int64 :=
  match operator with
  | .plus => orOverflow (Integer.add? left right) span
  | .minus => orOverflow (Integer.sub? left right) span
  | .star => orOverflow (Integer.mul? left right) span
  | _ => .error ⟨.notBinary operator, span⟩

def Expression.eval (store : Store) : Expression → Except EvalError Int64
  | .identifier name span =>
      match store.get? name with
      | some value => .ok value
      | none => .error ⟨.undefinedVariable name, span⟩
  | .integer value _ => .ok value
  | .unary operator operand span =>
      match operand.eval store with
      | .error error => .error error
      | .ok value => evalUnary operator value span
  | .binary operator left right span =>
      match left.eval store with
      | .error error => .error error
      | .ok leftValue =>
          match right.eval store with
          | .error error => .error error
          | .ok rightValue => evalBinary operator leftValue rightValue span
  | .nested inner _ => inner.eval store

/-- The store after an assignment. -/
def Assignment.eval (store : Store) (assignment : Assignment) : Except EvalError Store :=
  match assignment.value.eval store with
  | .error error => .error error
  | .ok value => .ok (store.set assignment.name value)

/-- Runs statements until one fails. The store keeps what was assigned before. -/
def evalStatements (store : Store) : List Assignment → Except EvalError Unit × Store
  | [] => (.ok (), store)
  | assignment :: rest =>
      match assignment.eval store with
      | .error error => (.error error, store)
      | .ok after => evalStatements after rest

def Program.eval (program : Program) (store : Store) : Except EvalError Unit × Store :=
  evalStatements store program.statements

end Abacus
