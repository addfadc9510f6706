import Abacus.Evaluation
import Abacus.Failure
import Abacus.Parser

/-! # Running programs

Each statement is evaluated as soon as it is read, so an undefined variable is
reported before a syntax error in a later statement. -/

namespace Abacus

/-- Reads and evaluates statements as long as one is due. -/
def execute (source : Source) (store : Store) (input : List Lexeme) : Except Failure Store :=
  if Grammar.hasStatement input then
    match Grammar.assignment input with
    | .failed error _ => .error (.parsing source error)
    | .done assignment rest _ =>
        match assignment.eval store with
        | .error error => .error (.evaluation source error)
        | .ok after => execute source after rest
  else .ok store
termination_by input.length

/-- What a run comes to, and what it reports on its way. -/
structure Run where
  result : Except Failure Store
  warnings : List Warning

namespace Run

/-- The run of the tokens of a source. -/
def ofStream (source : Source) (stream : TokenStream) (store : Store) : Run :=
  ⟨execute source store stream.lexemes, stream.errors.map (⟨source, ·⟩)⟩

/-- The run of a text that comes from no file. -/
def ofText (mode : Mode) (text : String) (store : Store) : Run :=
  ofStream ⟨"<input>", text⟩ (TokenStream.ofText mode text) store

/-- The store afterwards: a run that fails leaves everything as it was. -/
def storeAfter (run : Run) (before : Store) : Store :=
  match run.result with
  | .ok after => after
  | .error _ => before

end Run

/-! ## Sessions -/

/-- A store that several runs work on, with the warnings they made. -/
structure Session where
  store : Store
  warnings : List Warning
deriving DecidableEq, Inhabited

namespace Session

def start : Session := ⟨.empty, []⟩

/-- Runs a text. It changes the store only if it succeeds. -/
def run (session : Session) (mode : Mode) (text : String) : Except Failure Store × Session :=
  let run := Run.ofText mode text session.store
  (run.result, ⟨run.storeAfter session.store, session.warnings ++ run.warnings⟩)

/-- The warnings so far, and the session without them. -/
def takeWarnings (session : Session) : List Warning × Session :=
  (session.warnings, { session with warnings := [] })

/-- The value a variable had, and the session where it has another. -/
def set (session : Session) (name : String) (value : Int64) : Option Int64 × Session :=
  let (previous, store) := session.store.exchange name value
  (previous, { session with store })

end Session

end Abacus
