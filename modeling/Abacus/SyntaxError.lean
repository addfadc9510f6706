import Abacus.Token

/-! # Syntax errors

Where the tokens stop being a program, and what was found there. -/

namespace Abacus

inductive SyntaxCause
  /-- A statement starts with something that is not a variable name. -/
  | notAnAssignment (found : Token)
  | unexpected (found : Token) (expected : List String)
  /-- There is no token left, not even the end of the source. -/
  | unexpectedEnd
  /-- A numeral that no 64-bit integer equals. -/
  | literalOutOfRange (digits : String)
deriving DecidableEq, Inhabited

structure SyntaxError where
  cause : SyntaxCause
  span : Span
deriving DecidableEq, Inhabited

/-- How a message refers to a token that was found. -/
def Token.mention : Token → String
  | int digits => "the literal `" ++ digits ++ "`"
  | ident name => "the identifier `" ++ name ++ "`"
  | malformed => "a malformed token"
  | eof => "the end of file"
  | token => "`" ++ token.text ++ "`"

/-- How a message refers to a token that was expected. -/
def Token.quoted (token : Token) : String := "`" ++ token.text ++ "`"

namespace SyntaxError

def message (error : SyntaxError) : String :=
  match error.cause with
  | .notAnAssignment _ => "Expected an assignment"
  | .unexpected _ _ => "Not expected this"
  | .unexpectedEnd => "Unexpected end of file"
  | .literalOutOfRange _ => "Integer literal out of range"

def notes (error : SyntaxError) : List String :=
  match error.cause with
  | .notAnAssignment found =>
      ["Found " ++ found.mention ++ ", but every statement starts with a variable name."]
  | .unexpected found expected =>
      ("Found " ++ found.mention ++ ", expected one of: ") :: expected.map ("- " ++ ·)
  | .unexpectedEnd => []
  | .literalOutOfRange digits =>
      ["`" ++ digits ++ "` does not fit in a 64-bit signed integer."]

/-- A token in a place where others were expected. -/
def unexpected (found : Lexeme) (expected : List String) : SyntaxError :=
  ⟨.unexpected found.token expected, found.span⟩

/-- No token in a place where some were expected. -/
def unexpectedEnd : SyntaxError := ⟨.unexpectedEnd, .point 0⟩

end SyntaxError

end Abacus
