import Abacus.Span

/-! # Lexical errors

What the lexer could not read. It recovers from each of these by itself. -/

namespace Abacus

inductive LexicalCause
  /-- A numeral such as `007`. The rest of its line is dropped. -/
  | leadingZero
  /-- A character that no token starts with. Only strict lexing reports it. -/
  | unrecognized (character : Char)
deriving DecidableEq, Inhabited

structure LexicalError where
  cause : LexicalCause
  span : Span
deriving DecidableEq, Inhabited

namespace LexicalError

def message (error : LexicalError) : String :=
  match error.cause with
  | .leadingZero => "Integer literal with a leading zero"
  | .unrecognized _ => "Unrecognized character"

def notes (error : LexicalError) : List String :=
  match error.cause with
  | .leadingZero => ["The rest of this line was skipped."]
  | .unrecognized character => ["`" ++ character.toString ++ "` is not part of the language."]

end LexicalError

end Abacus
