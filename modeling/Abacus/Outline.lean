import Abacus.Program

/-! # Outlines

The tree of a program written out over many lines, one field or entry per line
and four blanks per level. Names hold ASCII letters, digits and underscores only,
so they stand between quotes as they are.

A piece of an outline is a list of lines. -/

namespace Abacus.Outline

def indent (lines : List String) : List String :=
  lines.map ("    " ++ ·)

/-- Puts text before the first line. -/
def before (text : String) : List String → List String
  | [] => [text]
  | line :: rest => (text ++ line) :: rest

/-- Puts text behind the last line. -/
def behind (text : String) : List String → List String
  | [] => [text]
  | [line] => [line ++ text]
  | line :: rest => line :: behind text rest

def field (name : String) (value : List String) : List String :=
  before (name ++ ": ") (behind "," value)

def record (name : String) (fields : List (List String)) : List String :=
  [name ++ " \x7b"] ++ indent fields.flatten ++ ["\x7d"]

def variant (name : String) (value : List String) : List String :=
  [name ++ "("] ++ indent (behind "," value) ++ [")"]

def entries (values : List (List String)) : List String :=
  match values with
  | [] => ["[]"]
  | _ => ["["] ++ indent (values.map (behind ",")).flatten ++ ["]"]

def ofName (name : String) : List String := ["\"" ++ name ++ "\""]

def ofToken (token : Token) : List String := [token.label]

def ofSpan (span : Span) : List String :=
  record "SrcSpan"
    [field "start" [Text.naturalText span.start], field "end" [Text.naturalText span.stop]]

def ofIdentifier (name : String) (span : Span) : List String :=
  record "Identifier" [field "value" (ofName name), field "location" (ofSpan span)]

def ofExpression : Expression → List String
  | .identifier name span => variant "Identifier" (ofIdentifier name span)
  | .integer value span =>
      variant "Primitive" (record "Int"
        [field "value" [Integer.text value], field "location" (ofSpan span)])
  | .unary operator operand span =>
      variant "Prefix" (record "Prefix"
        [field "operator" (ofToken operator), field "expression" (ofExpression operand),
         field "location" (ofSpan span)])
  | .binary operator left right span =>
      variant "Infix" (record "Infix"
        [field "left" (ofExpression left), field "operator" (ofToken operator),
         field "right" (ofExpression right), field "location" (ofSpan span)])
  | .nested inner span =>
      record "Nested" [field "expression" (ofExpression inner), field "location" (ofSpan span)]

def ofAssignment (assignment : Assignment) : List String :=
  record "Assignment"
    [field "identifier" (ofIdentifier assignment.name assignment.nameSpan),
     field "value" (ofExpression assignment.value), field "location" (ofSpan assignment.span)]

def ofProgram (program : Program) : List String :=
  record "Program"
    [field "statements" (entries (program.statements.map ofAssignment)),
     field "location" (ofSpan program.span)]

end Abacus.Outline

namespace Abacus

def Program.outline (program : Program) : String :=
  "\n".intercalate (Outline.ofProgram program)

end Abacus
