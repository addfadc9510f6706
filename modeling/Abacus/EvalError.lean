import Abacus.Token

/-! # Evaluation errors

Why an expression has no value, and the node that has none. -/

namespace Abacus

inductive EvalCause
  /-- A variable is read before anything was assigned to it. -/
  | undefinedVariable (name : String)
  /-- The exact result does not fit. -/
  | overflow
  /-- The token of a binary node joins no operands. No source text leads here. -/
  | notBinary (operator : Token)
deriving DecidableEq, Inhabited

structure EvalError where
  cause : EvalCause
  span : Span
deriving DecidableEq, Inhabited

namespace EvalError

def message (error : EvalError) : String :=
  match error.cause with
  | .undefinedVariable _ => "Variable not found"
  | .overflow => "Arithmetic overflow"
  | .notBinary _ => "Malformed expression"

def notes (error : EvalError) : List String :=
  match error.cause with
  | .undefinedVariable name => ["Variable `" ++ name ++ "` is used before it is assigned."]
  | .overflow => ["The result does not fit in a 64-bit signed integer."]
  | .notBinary operator => ["`" ++ operator.text ++ "` is not a binary operator"]

end EvalError

end Abacus
