import Abacus.Integer
import Abacus.Token

/-! # Expressions

The tree of an expression, with the place of every node, and its two renderings:
fully parenthesized, and in reverse Polish order.

Operators are kept as tokens. Trees that were read from source have signs on
their unary nodes and operators on their binary ones. -/

namespace Abacus

inductive Expression
  | identifier (name : String) (span : Span)
  | integer (value : Int64) (span : Span)
  | unary (operator : Token) (operand : Expression) (span : Span)
  | binary (operator : Token) (left right : Expression) (span : Span)
  /-- An expression in parentheses. -/
  | nested (inner : Expression) (span : Span)
deriving DecidableEq, Inhabited

namespace Expression

def span : Expression → Span
  | identifier _ span => span
  | integer _ span => span
  | unary _ _ span => span
  | binary _ _ _ span => span
  | nested _ span => span

/-- Every binary node is put in parentheses of its own, so the parentheses of the
source need not be kept. -/
def text : Expression → String
  | identifier name _ => name
  | integer value _ => Integer.text value
  | unary operator operand _ => operator.text ++ operand.text
  | binary operator left right _ =>
      "(" ++ left.text ++ " " ++ operator.text ++ " " ++ right.text ++ ")"
  | nested inner _ => inner.text

/-- Operands before their operator. A minus sign is written `neg`, and a plus sign
is left out. -/
def reversePolish : Expression → String
  | identifier name _ => name
  | integer value _ => Integer.text value
  | unary operator operand _ =>
      match operator with
      | .minus => operand.reversePolish ++ " neg"
      | _ => operand.reversePolish
  | binary operator left right _ =>
      left.reversePolish ++ " " ++ right.reversePolish ++ " " ++ operator.text
  | nested inner _ => inner.reversePolish

end Expression

end Abacus
