import Abacus.CommandLine
import Abacus.Diagnostic
import Abacus.Document
import Abacus.Outline

/-! # The console

What every command writes, as a function of the documents it reads and of the
lines of the standard input. -/

namespace Abacus

open Text

/-- What is written to the two output channels. -/
structure Output where
  out : String := ""
  err : Styled := []
deriving Inhabited

namespace Output

def append (first second : Output) : Output :=
  ⟨first.out ++ second.out, first.err ++ second.err⟩

instance : Append Output := ⟨append⟩

end Output

/-- What was written when a command ended, and whether it succeeded. -/
structure Completion where
  output : Output
  success : Bool
deriving Inhabited

/-- The exit status. -/
def Completion.code (completion : Completion) : Nat :=
  if completion.success then 0 else 1

/-- The exit status for arguments that ask for no command. -/
def usageErrorCode : Nat := 2

namespace Console

def versionText : String := "calc 0.1.0\n"

/-- A word that says what goes on, and what it is about. -/
def statusLine (word : String) (colour : Colour) (subject : String) : Styled :=
  .within { bold := true, intense := true, colour := some colour } (alignRight 11 word) ++
    .plain (" " ++ subject ++ "\n")

/-- The whole report of a failure: details on one channel, a summary on the other. -/
def failureOutput (failure : Failure) : Output :=
  { out := failure.summary ++ "\n", err := failure.report }

def warningsOutput (warnings : List Warning) : Output :=
  { err := warnings.flatMap Warning.report }

def completed (output : Output) : Completion := ⟨output, true⟩

def failed (output : Output) (failure : Failure) : Completion :=
  ⟨output ++ failureOutput failure, false⟩

/-! ## Commands on a document -/

/-- Lists the variables of a program that was run. The time it took is given as
text. -/
def run (path elapsed : String) (run : Run) : Completion :=
  let opening : Output := { err := statusLine "Running" .green path }
  let begun := opening ++ warningsOutput run.warnings
  match run.result with
  | .ok store =>
      let closing := statusLine "Finished" .green ("in " ++ elapsed)
      completed (begun ++ { out := store.text, err := closing })
  | .error failure =>
      let closing : Output := { err := statusLine "Failed" .red ("after " ++ elapsed) }
      failed (begun ++ closing) failure

/-- The lexical warnings of a document whose tokens were read. -/
def lexicalWarnings (path text : String) (stream : TokenStream) : Output :=
  warningsOutput (stream.errors.map (⟨⟨path, text⟩, ·⟩))

def tokens (path : String) (mode : Mode) (document : Document) : Completion :=
  let opening : Output := { err := statusLine "Lexing" .magenta path }
  match document.read mode with
  | .error fault => failed opening (.access fault)
  | .ok (text, stream) =>
      completed (opening ++ lexicalWarnings path text stream ++ { out := stream.listing })

def render (rendering : Rendering) (program : Program) : String :=
  match rendering with
  | .parenthesized => program.text
  | .reversePolish => program.reversePolish
  | .outline => program.outline

def parse (path : String) (rendering : Rendering) (mode : Mode) (document : Document) :
    Completion :=
  let opening : Output := { err := statusLine "Parsing" .cyan path }
  match document.read mode with
  | .error fault => failed opening (.access fault)
  | .ok (text, stream) =>
      let begun := opening ++ lexicalWarnings path text stream
      match Abacus.parse stream with
      | .error error => failed begun (.parsing ⟨path, text⟩ error)
      | .ok program => completed (begun ++ { out := render rendering program ++ "\n" })

/-! ## Line by line -/

def prompt : String := ">> "

/-- The answer to a line: what is written, and what to go on with, if anything. -/
structure Reply (σ : Type) where
  output : Output := {}
  next : Option σ

/-- A line without the line end behind it. -/
def withoutLineEnd (line : String) : String :=
  String.ofList (line.toList.reverse.dropWhile fun char => char = '\n' || char = '\r').reverse

/-- Runs a line as a whole program on the store, and lists what it changed. -/
def runLine (mode : Mode) (store : Store) (line : String) : Reply Store :=
  match withoutLineEnd line with
  | "" => { next := some store }
  | ".exit" => { next := none }
  | ".vars" => { output := { out := store.text }, next := some store }
  | source =>
      let run := Run.ofText mode source store
      let warnings := warningsOutput run.warnings
      match run.result with
      | .ok after =>
          let changes := String.join ((after.changesSince store).map Store.entryText)
          { output := warnings ++ { out := changes }, next := some after }
      | .error failure => { output := warnings ++ failureOutput failure, next := some store }

/-- One line per token, and for an error one line and its notes. -/
def itemText : Item → String
  | .read lexeme =>
      alignRight 4 (naturalText lexeme.span.start) ++ ".." ++
        alignLeft 4 (naturalText lexeme.span.stop) ++ " " ++ lexeme.token.label ++ "\n"
  | .failed error =>
      "[at " ++ naturalText error.span.start ++ "] Lexical Error: " ++ error.message ++ "\n" ++
        "\n".intercalate error.notes ++ "\n"

/-- Lexes a line, and lists what was read. -/
def lexLine (_ : Unit) (line : String) : Reply Unit :=
  match withoutLineEnd line with
  | "" => { next := some () }
  | ".exit" => { next := none }
  | source =>
      { output := { out := String.join ((lex .permissive source).map itemText) }
        next := some () }

/-- Bytes cut behind every newline. -/
def splitLines : List UInt8 → List (List UInt8)
  | [] => []
  | byte :: rest =>
      if byte = 10 then [byte] :: splitLines rest
      else
        match splitLines rest with
        | [] => [[byte]]
        | line :: more => (byte :: line) :: more

/-- Answers lines until one of them ends the conversation, there is none left or one
is no text. -/
def converse (answer : σ → String → Reply σ) (state : σ) : List (List UInt8) → Completion
  | [] => completed { out := prompt }
  | bytes :: rest =>
      let asked : Output := { out := prompt }
      match Utf8.text? bytes with
      | none => failed asked (.access .invalidData)
      | some line =>
          let reply := answer state line
          match reply.next with
          | none => completed (asked ++ reply.output)
          | some state =>
              let further := converse answer state rest
              ⟨asked ++ reply.output ++ further.output, further.success⟩

/-! ## All commands -/

/-- What a command writes when it finds the given documents and standard input. -/
def perform (elapsed : String) (find : String → Document) (input : List UInt8) :
    Command → Completion
  | .run path mode => run path elapsed ((find path).interpret mode path)
  | .tokens path mode => tokens path mode (find path)
  | .parse path rendering mode => parse path rendering mode (find path)
  | .lexLines => converse lexLine () (splitLines input)
  | .runLines mode => converse (runLine mode) .empty (splitLines input)
  | .version => completed { out := versionText }

/-- Colours are used if the environment asks for them with any text but the empty one. -/
def coloured (request : Option String) : Bool :=
  request.any fun text => !text.isEmpty

end Console

end Abacus
