import Abacus.Program
import Abacus.SyntaxError

/-! # Reading expressions and statements

Recursive descent over a list of tokens:

* an assignment is a name, `=`, a sum and `;`;
* a sum is a product, or a product, `+` or `-`, and a sum;
* a product is a factor, or a factor, `*`, and a product;
* a factor is a sum in parentheses, a signed factor, a literal or a name.

Both chains recur on their right, so `a - b - c` is read as `a - (b - c)`.

A numeral has no sign of its own, so the magnitude of the least integer does not
fit. A minus sign directly before that numeral is read with it as one literal. -/

namespace Abacus

/-- What reading part of `input` gives: a value, or an error, and in both cases the
tokens that are left. A value takes at least one token. -/
inductive Outcome (α : Type) (input : List Lexeme)
  | done (value : α) (rest : List Lexeme) (shorter : rest.length < input.length)
  | failed (error : SyntaxError) (rest : List Lexeme)

namespace Outcome

def result : Outcome α input → Except SyntaxError α
  | done value _ _ => .ok value
  | failed error _ => .error error

def rest : Outcome α input → List Lexeme
  | done _ rest _ => rest
  | failed _ rest => rest

end Outcome

namespace Grammar

/-! ## Single tokens -/

/-- Takes the given token. Nothing is taken on failure. -/
def expect (token : Token) (input : List Lexeme) : Outcome Span input :=
  match input with
  | [] => .failed .unexpectedEnd []
  | lexeme :: rest =>
      if lexeme.token = token then .done lexeme.span rest (by simp)
      else .failed (.unexpected lexeme [token.quoted]) (lexeme :: rest)

/-- Takes a name. Nothing is taken on failure. -/
def expectName (input : List Lexeme) : Outcome (String × Span) input :=
  match input with
  | [] => .failed .unexpectedEnd []
  | ⟨.ident name, span⟩ :: rest => .done (name, span) rest (by simp)
  | lexeme :: rest => .failed (.unexpected lexeme ["an identifier"]) (lexeme :: rest)

/-- Takes a literal. A token that is none is taken as well. -/
def literal (input : List Lexeme) : Outcome Expression input :=
  match input with
  | [] => .failed .unexpectedEnd []
  | ⟨.int digits, span⟩ :: rest =>
      match Integer.ofText? digits with
      | some value => .done (.integer value span) rest (by simp)
      | none => .failed ⟨.literalOutOfRange digits, span⟩ rest
  | lexeme :: rest => .failed (.unexpected lexeme ["an integer literal"]) rest

/-- Whether digits behind a minus sign make the least integer. -/
def isLeastMagnitude (digits : String) : Bool :=
  Integer.ofText? ("-" ++ digits) == some Int64.minValue

/-- Takes the least integer, which is read together with its sign. -/
def leastLiteral? : List Lexeme → Option (Expression × List Lexeme)
  | ⟨.minus, sign⟩ :: ⟨.int digits, span⟩ :: rest =>
      if isLeastMagnitude digits then
        some (.integer Int64.minValue ⟨sign.start, span.stop⟩, rest)
      else none
  | _ => none

theorem length_leastLiteral?_lt {input rest : List Lexeme} {expression : Expression}
    (found : leastLiteral? input = some (expression, rest)) : rest.length < input.length := by
  unfold leastLiteral? at found
  split at found
  · split at found
    · simp only [Option.some.injEq, Prod.mk.injEq] at found
      simp only [List.length_cons, ← found.2]
      omega
    · contradiction
  · contradiction

/-! ## Expressions -/

/-- The layers of the expression grammar, from the loosest to the tightest. -/
inductive Layer
  | sum
  | product
  | factor
deriving DecidableEq, Inhabited

namespace Layer

/-- The layer of the operands that a layer joins. -/
def operand? : Layer → Option Layer
  | sum => some product
  | product => some factor
  | factor => none

/-- The operators that a layer joins its operands with. -/
def joins : Layer → Token → Bool
  | sum, .plus => true
  | sum, .minus => true
  | product, .star => true
  | _, _ => false

def depth : Layer → Nat
  | sum => 2
  | product => 1
  | factor => 0

theorem depth_operand?_lt {layer tighter : Layer} (operand : layer.operand? = some tighter) :
    tighter.depth < layer.depth := by
  cases layer <;> simp [operand?] at operand <;> subst operand <;> decide

end Layer

/-- What a factor may start with. -/
def factorStarts : List String :=
  [Token.leftParen.quoted, "`-` or `+`", "an integer literal", "an identifier"]

/-- The span from the start of one piece to the end of another. -/
def spanning (first last : Span) : Span := ⟨first.start, last.stop⟩

/-- Puts a factor under the sign in front of it. -/
def underSign (sign : Lexeme) : Outcome Expression input → Outcome Expression (sign :: input)
  | .failed error rest => .failed error rest
  | .done operand rest shorter =>
      .done (.unary sign.token operand (spanning sign.span operand.span)) rest
        (by simp only [List.length_cons]; omega)

/-- Takes an expression of the given layer. -/
def expression (layer : Layer) (input : List Lexeme) : Outcome Expression input :=
  match _operand : layer.operand? with
  | some tighter =>
      match expression tighter input with
      | .failed error rest => .failed error rest
      | .done left [] shorter => .done left [] shorter
      | .done left (operator :: rest) shorter =>
          if layer.joins operator.token then
            match expression layer rest with
            | .failed error rest => .failed error rest
            | .done right rest further =>
                .done (.binary operator.token left right (spanning left.span right.span)) rest
                  (by simp only [List.length_cons] at shorter; omega)
          else .done left (operator :: rest) shorter
  | none =>
      match input with
      | [] => .failed .unexpectedEnd []
      | first :: rest =>
          match first.token with
          | .leftParen =>
              match expression .sum rest with
              | .failed error rest => .failed error rest
              | .done inner rest shorter =>
                  match expect .rightParen rest with
                  | .failed error rest => .failed error rest
                  | .done closing rest further =>
                      .done (.nested inner (spanning first.span closing)) rest
                        (by simp only [List.length_cons]; omega)
          | .int _ => literal (first :: rest)
          | .ident name => .done (.identifier name first.span) rest (by simp)
          | _ =>
              if first.token.isSign then
                match found : leastLiteral? (first :: rest) with
                | some (least, rest) => .done least rest (length_leastLiteral?_lt found)
                | none => underSign first (expression .factor rest)
              else .failed (.unexpected first factorStarts) (first :: rest)
termination_by 3 * input.length + layer.depth
decreasing_by
  · have := Layer.depth_operand?_lt _operand
    omega
  · simp only [List.length_cons] at shorter
    omega
  · simp only [List.length_cons, Layer.depth]
    omega
  · simp only [List.length_cons, Layer.depth]
    omega

/-- Takes a sign and a factor. A token that is no sign is taken as well. -/
def signed (input : List Lexeme) : Outcome Expression input :=
  match input with
  | [] => .failed .unexpectedEnd []
  | first :: rest =>
      if first.token.isSign then underSign first (expression .factor rest)
      else .failed (.unexpected first ["`-` or `+`"]) rest

/-! ## Statements -/

/-- Takes a name, `=`, an expression and `;`. -/
def assignment (input : List Lexeme) : Outcome Assignment input :=
  match input with
  | [] => .failed .unexpectedEnd []
  | ⟨.ident name, nameSpan⟩ :: rest =>
      match expect .equals rest with
      | .failed error rest => .failed error rest
      | .done _ rest afterEquals =>
          match expression .sum rest with
          | .failed error rest => .failed error rest
          | .done value rest afterValue =>
              match expect .semicolon rest with
              | .failed error rest => .failed error rest
              | .done closing rest afterClosing =>
                  .done ⟨name, nameSpan, value, spanning nameSpan closing⟩ rest
                    (by simp only [List.length_cons]; omega)
  | lexeme :: rest => .failed ⟨.notAnAssignment lexeme.token, lexeme.span⟩ (lexeme :: rest)

/-- Whether a statement is due: there is more than the last token, which ends a
program. -/
def hasStatement : List Lexeme → Bool
  | [] => false
  | _ :: rest => !rest.isEmpty

/-- Takes statements as long as one is due, and stops at the first error. The
statements before the error are kept. -/
def statements (input : List Lexeme) : List Assignment × Except SyntaxError Unit × List Lexeme :=
  if hasStatement input then
    match assignment input with
    | .failed error rest => ([], .error error, rest)
    | .done first rest _ =>
        let (further, result, left) := statements rest
        (first :: further, result, left)
  else ([], .ok (), input)
termination_by input.length

end Grammar

end Abacus
