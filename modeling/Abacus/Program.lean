import Abacus.Expression

/-! # Programs

A program is a row of assignments. -/

namespace Abacus

structure Assignment where
  name : String
  nameSpan : Span
  value : Expression
  span : Span
deriving DecidableEq, Inhabited

namespace Assignment

def text (assignment : Assignment) : String :=
  assignment.name ++ " = " ++ assignment.value.text ++ ";"

def reversePolish (assignment : Assignment) : String :=
  assignment.name ++ " " ++ assignment.value.reversePolish ++ " ="

end Assignment

structure Program where
  statements : List Assignment
  span : Span
deriving DecidableEq, Inhabited

namespace Program

/-- The program of some statements reaches from the first to the last of them. -/
def ofStatements (statements : List Assignment) : Program :=
  match statements.head?, statements.getLast? with
  | some first, some last => ⟨statements, first.span.merge last.span⟩
  | _, _ => ⟨statements, .point 0⟩

/-- One statement per line. -/
def text (program : Program) : String :=
  "\n".intercalate (program.statements.map Assignment.text)

def reversePolish (program : Program) : String :=
  "\n".intercalate (program.statements.map Assignment.reversePolish)

end Program

end Abacus
