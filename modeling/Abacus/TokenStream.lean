import Abacus.Lexer
import Abacus.Text.Align

/-! # Token streams

Every token of one source, ended by `eof`. A lexical error does not stop the
reading: it leaves a malformed token in its place and is kept for reporting. -/

namespace Abacus

/-- The token that an item puts into the stream. -/
def Item.lexeme : Item → Lexeme
  | read lexeme => lexeme
  | failed error => ⟨.malformed, error.span⟩

def Item.error? : Item → Option LexicalError
  | read _ => none
  | failed error => some error

structure TokenStream where
  lexemes : List Lexeme
  errors : List LexicalError
deriving DecidableEq, Inhabited

namespace TokenStream

def empty : TokenStream := ⟨[], []⟩

/-- The lexemes with an `eof` at their end, which is added where it is missing. -/
def closed (lexemes : List Lexeme) : List Lexeme :=
  match lexemes.getLast? with
  | some ⟨.eof, _⟩ => lexemes
  | some last => lexemes ++ [⟨.eof, .point last.span.stop⟩]
  | none => [⟨.eof, .point 0⟩]

def ofItems (items : List Item) : TokenStream :=
  ⟨closed (items.map Item.lexeme), items.filterMap Item.error?⟩

def ofText (mode : Mode) (text : String) : TokenStream :=
  ofItems (lex mode text)

def tokens (stream : TokenStream) : List Token :=
  stream.lexemes.map (·.token)

def isEmpty (stream : TokenStream) : Bool := stream.lexemes.isEmpty

def front? (stream : TokenStream) : Option Lexeme := stream.lexemes.head?

/-- The front token, and the stream without it. -/
def popFront (stream : TokenStream) : Option Lexeme × TokenStream :=
  (stream.lexemes.head?, { stream with lexemes := stream.lexemes.tail })

/-- The errors, and the stream without them. -/
def takeErrors (stream : TokenStream) : List LexicalError × TokenStream :=
  (stream.errors, { stream with errors := [] })

def listingLine (token : Token) : String :=
  token.text ++ "\t" ++ Text.alignRight 20 token.description ++ "\n"

/-- One line per token: its text and what kind of token it is. -/
def listing (stream : TokenStream) : String :=
  String.join (stream.tokens.map listingLine)

end TokenStream

end Abacus
