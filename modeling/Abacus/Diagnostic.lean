import Abacus.Failure
import Abacus.Snippet

/-! # Diagnostics

Reports for people: a headline, the place in the source if there is one, and notes. -/

namespace Abacus

open Text

inductive Level
  | warning
  | error
deriving DecidableEq, Inhabited

namespace Level

def text : Level → String
  | warning => "warning"
  | error => "error"

def colour : Level → Colour
  | warning => .yellow
  | error => .red

end Level

/-- A span of a source, with what is to be said about it there. -/
structure Location where
  source : Source
  span : Span
  label : String
deriving DecidableEq, Inhabited

structure Diagnostic where
  level : Level
  title : String
  notes : String
  location : Option Location
deriving DecidableEq, Inhabited

/-- The part of a span that lies within a text. The end of a source may stand past
its text. -/
def Span.clamp (span : Span) (size : Nat) : Span :=
  let stop := min span.stop size
  ⟨min span.start stop, stop⟩

namespace Diagnostic

def headline (diagnostic : Diagnostic) : Styled :=
  [.style { bold := true, intense := true, colour := some diagnostic.level.colour },
   .text diagnostic.level.text,
   .style { bold := true, intense := true },
   .text (": " ++ diagnostic.title),
   .style {},
   .text "\n"]

/-- The headline of a report that has no place in a source. -/
def bareHeadline (diagnostic : Diagnostic) : Styled :=
  [.style { bold := true, colour := some diagnostic.level.colour },
   .text diagnostic.level.text,
   .style { bold := true },
   .text (": " ++ diagnostic.title ++ "\n\n"),
   .style {}]

def draw (diagnostic : Diagnostic) : Styled :=
  let top :=
    match diagnostic.location with
    | none => diagnostic.bareHeadline
    | some location =>
        let text := location.source.text
        diagnostic.headline ++ Snippet.draw
          { name := location.source.name
            text
            span := location.span.clamp text.utf8ByteSize
            label := location.label
            accent := { colour := some diagnostic.level.colour } }
  let notes :=
    if diagnostic.notes.isEmpty then [] else Styled.plain (diagnostic.notes ++ "\n")
  top ++ notes

end Diagnostic

namespace Failure

def diagnostic : Failure → Diagnostic
  | parsing source error =>
      -- A missing token has no span of its own: it is missing at the end of the text.
      let span :=
        match error.cause with
        | .unexpectedEnd => .point source.text.utf8ByteSize
        | _ => error.span
      { level := .error
        title := "Syntax error"
        notes := "\n".intercalate error.notes
        location := some ⟨source, span, error.message⟩ }
  | evaluation source error =>
      { level := .error
        title :=
          match error.cause with
          | .undefinedVariable _ => "Undefined variable"
          | _ => "Runtime error"
        notes := "\n".intercalate error.notes
        location := some ⟨source, error.span, error.message⟩ }
  | access fault =>
      { level := .error
        title := "Standard IO error"
        notes := fault.text
        location := none }

/-- The report of a failure, with an empty line behind it. -/
def report (failure : Failure) : Styled :=
  failure.diagnostic.draw ++ .newline

example : (report (evaluation ⟨"<input>", "x = 1;\ny = q * x;\n"⟩
    ⟨.undefinedVariable "q", ⟨11, 12⟩⟩)).toPlain =
      "error: Undefined variable\n" ++
      "  ┌─ <input>:2:5\n" ++
      "  │\n" ++
      "2 │ y = q * x;\n" ++
      "  │     ^ Variable not found\n" ++
      "\n" ++
      "Variable `q` is used before it is assigned.\n" ++
      "\n" := by
  decide +kernel

end Failure

namespace Warning

def diagnostic (warning : Warning) : Diagnostic :=
  { level := .warning
    title := "Malformed token"
    notes := "\n".intercalate warning.error.notes
    location := some ⟨warning.source, warning.error.span, warning.error.message⟩ }

/-- The report of a warning, with an empty line behind it. -/
def report (warning : Warning) : Styled :=
  warning.diagnostic.draw ++ .newline

end Warning

end Abacus
