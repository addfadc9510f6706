import Abacus.Text.Decimal

/-! # Styled text

Text in pieces, with changes of style between them. It is written plainly, where
the styles are left out, or with the control sequences of a terminal. -/

namespace Abacus.Text

inductive Colour
  | red
  | green
  | yellow
  | blue
  | magenta
  | cyan
deriving DecidableEq, Inhabited

/-- The number a terminal knows a colour by. -/
def Colour.number : Colour → Nat
  | red => 1
  | green => 2
  | yellow => 3
  | blue => 4
  | magenta => 5
  | cyan => 6

structure Style where
  bold : Bool := false
  /-- The bright variant of the colour. -/
  intense : Bool := false
  colour : Option Colour := none
deriving DecidableEq, Inhabited

inductive Piece
  | text (content : String)
  | style (style : Style)
deriving DecidableEq, Inhabited

abbrev Styled := List Piece

/-- Sets a terminal back and then turns on what the style asks for. -/
def Style.sequence (style : Style) : String :=
  let weight := if style.bold then "\x1b[1m" else ""
  let colour :=
    match style.colour with
    | none => ""
    | some colour =>
        if style.intense then "\x1b[38;5;" ++ naturalText (8 + colour.number) ++ "m"
        else "\x1b[3" ++ naturalText colour.number ++ "m"
  "\x1b[0m" ++ weight ++ colour

namespace Styled

def plain (content : String) : Styled := [.text content]

/-- Text in a style, and the plain style behind it. -/
def within (style : Style) (content : String) : Styled :=
  [.style style, .text content, .style {}]

def newline : Styled := plain "\n"

/-- The text alone. -/
def toPlain (styled : Styled) : String :=
  String.join (styled.map fun
    | .text content => content
    | .style _ => "")

/-- The text with control sequences for the styles. -/
def toTerminal (styled : Styled) : String :=
  String.join (styled.map fun
    | .text content => content
    | .style style => style.sequence)

def write (coloured : Bool) (styled : Styled) : String :=
  if coloured then styled.toTerminal else styled.toPlain

end Styled

end Abacus.Text
