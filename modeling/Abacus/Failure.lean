import Abacus.EvalError
import Abacus.LexicalError
import Abacus.SyntaxError

/-! # Failures and warnings

What ends a run, and what it only reports on its way. -/

namespace Abacus

/-- A program text and the name it goes by. -/
structure Source where
  name : String
  text : String
deriving DecidableEq, Inhabited

/-- Why a file or the standard input could not be read. -/
inductive AccessFault
  | notFound
  | permissionDenied
  | invalidData
  | unexpectedEnd
  | isDirectory
  | interrupted
  | timedOut
  | other
deriving DecidableEq, Inhabited

def AccessFault.text : AccessFault → String
  | notFound => "entity not found"
  | permissionDenied => "permission denied"
  | invalidData => "invalid data"
  | unexpectedEnd => "unexpected end of file"
  | isDirectory => "is a directory"
  | interrupted => "operation interrupted"
  | timedOut => "timed out"
  | other => "other error"

/-- Everything that ends a run. -/
inductive Failure
  | parsing (source : Source) (error : SyntaxError)
  | evaluation (source : Source) (error : EvalError)
  | access (fault : AccessFault)
deriving DecidableEq, Inhabited

namespace Failure

def message : Failure → String
  | parsing _ _ => "failed to parse source code"
  | evaluation _ _ => "evaluation failed"
  | access _ => "IO operation failed"

/-- The one line that goes to the standard output. -/
def summary : Failure → String
  | parsing _ ⟨.notAnAssignment _, _⟩ => "Not a valid program"
  | evaluation _ ⟨.undefinedVariable name, _⟩ => "Variable " ++ name ++ " was not found."
  | _ => "Error"

end Failure

/-- A problem that the lexer recovered from. It does not end a run by itself. -/
structure Warning where
  source : Source
  error : LexicalError
deriving DecidableEq, Inhabited

end Abacus
