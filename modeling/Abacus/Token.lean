import Abacus.Span

/-! # Tokens

The words of the language, the text each stands for, and a token together with
the place it was read from. -/

namespace Abacus

inductive Token
  /-- A numeral. The lexer only makes `0` and digits that do not start with `0`. -/
  | int (digits : String)
  /-- A letter or underscore, then letters, digits and underscores. -/
  | ident (name : String)
  | plus
  | minus
  | star
  | equals
  | leftParen
  | rightParen
  | semicolon
  /-- Stands where the lexer gave up on the input. -/
  | malformed
  | eof
deriving DecidableEq, Inhabited

namespace Token

/-- The source text of a token, or a placeholder for the two that have none. -/
def text : Token → String
  | int digits => digits
  | ident name => name
  | plus => "+"
  | minus => "-"
  | star => "*"
  | equals => "="
  | leftParen => "("
  | rightParen => ")"
  | semicolon => ";"
  | malformed => "error"
  | eof => "End of file"

/-- What kind of token this is, for the token listing. -/
def description : Token → String
  | int _ => "literal token"
  | ident _ => "identifier token"
  | plus => "+ token"
  | minus => "- token"
  | star => "* token"
  | equals => "= token"
  | leftParen => "( token"
  | rightParen => ") token"
  | semicolon => "terminal token"
  | malformed => "error token"
  | eof => "eof token"

/-- The token as an outline of the tree shows it: its kind, and its text in
quotes where the kind does not settle it. -/
def label : Token → String
  | int digits => "Int(\"" ++ digits ++ "\")"
  | ident name => "Ident(\"" ++ name ++ "\")"
  | plus => "Plus"
  | minus => "Minus"
  | star => "Star"
  | equals => "Equals"
  | leftParen => "LParen"
  | rightParen => "RParen"
  | semicolon => "Semicolon"
  | malformed => "Malformed"
  | eof => "Eof"

/-- The tokens that may join two operands. -/
def isOperator : Token → Bool
  | plus | minus | star => true
  | _ => false

/-- The tokens that may stand before an operand. -/
def isSign : Token → Bool
  | plus | minus => true
  | _ => false

theorem isOperator_of_isSign {token : Token} (sign : token.isSign = true) :
    token.isOperator = true := by
  cases token <;> simp_all [isSign, isOperator]

end Token

/-- A token and the place it was read from. -/
structure Lexeme where
  token : Token
  span : Span
deriving DecidableEq, Inhabited

end Abacus
