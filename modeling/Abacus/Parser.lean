import Abacus.Grammar
import Abacus.TokenStream

/-! # The parser

A parser holds the tokens it has not taken yet, the current one first. It can be
driven statement by statement, so that each one can be evaluated before the next
is read. After an error of a statement or of a program it is done for good. -/

namespace Abacus

structure Parser where
  remaining : List Lexeme
  failed : Bool
deriving DecidableEq, Inhabited

namespace Parser

def start (stream : TokenStream) : Parser := ⟨stream.lexemes, false⟩

def current? (parser : Parser) : Option Lexeme := parser.remaining.head?

/-- The token behind the current one. -/
def peek? (parser : Parser) : Option Token :=
  (parser.remaining.tail.head?).map (·.token)

def currentIs (parser : Parser) (token : Token) : Bool :=
  parser.current?.any (·.token == token)

/-- Takes the current token. -/
def advance (parser : Parser) : Option Lexeme × Parser :=
  (parser.current?, { parser with remaining := parser.remaining.tail })

def hasStatement (parser : Parser) : Bool :=
  !parser.failed && Grammar.hasStatement parser.remaining

/-- Reads a part of the grammar. An error does not end the parser's work. -/
def read (parser : Parser) (part : (input : List Lexeme) → Outcome α input) :
    Except SyntaxError α × Parser :=
  let outcome := part parser.remaining
  (outcome.result, { parser with remaining := outcome.rest })

/-- Ends the parser's work if the last step failed. -/
def sealed (step : Except SyntaxError α × Parser) : Except SyntaxError α × Parser :=
  match step with
  | (.ok value, parser) => (.ok value, parser)
  | (.error error, parser) => (.error error, { parser with failed := true })

/-- Reads the next statement, if one is due. -/
def next? (parser : Parser) : Option (Except SyntaxError Assignment) × Parser :=
  if parser.hasStatement then
    let (result, after) := sealed (parser.read Grammar.assignment)
    (some result, after)
  else (none, parser)

/-- Reads all statements that are due. An error does not end the parser's work. -/
def readProgram (parser : Parser) : Except SyntaxError Program × Parser :=
  if parser.failed then (.ok (.ofStatements []), parser)
  else
    let (statements, result, rest) := Grammar.statements parser.remaining
    (result.map fun _ => .ofStatements statements, { parser with remaining := rest })

/-- Reads all statements that are due. -/
def program (parser : Parser) : Except SyntaxError Program × Parser :=
  sealed parser.readProgram

end Parser

/-- Reads the tokens of a whole program. -/
def parse (stream : TokenStream) : Except SyntaxError Program :=
  (Parser.start stream).program.1

def parseText (mode : Mode) (text : String) : Except SyntaxError Program :=
  parse (TokenStream.ofText mode text)

/-- Chains group to the right, and products bind tighter than sums. -/
example : (parseText .permissive "x = a - b - c * d;").toOption.map Program.text =
    some "x = (a - (b - (c * d)));" := by
  decide +kernel

end Abacus
