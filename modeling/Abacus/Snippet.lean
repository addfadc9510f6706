import Abacus.Span
import Abacus.Text.Align
import Abacus.Text.Glyph
import Abacus.Text.Lines
import Abacus.Text.Styled
import Abacus.Text.WhiteSpace

/-! # Snippets

The lines of a source that a span covers, with line numbers, drawn so that the
span stands out: a span within one line has carets below it, and a span over
several lines has a bar to its left. -/

namespace Abacus

open Text

/-- What is to be drawn. The span lies within the text. -/
structure Snippet where
  name : String
  text : String
  span : Span
  /-- Stands beside the carets; an empty label is left out. -/
  label : String
  /-- The style of what belongs to the span. -/
  accent : Style

namespace Snippet

/-! ## Pieces of a row -/

def frame : Style := { colour := some .blue }

/-- The column of line numbers, without one. -/
def margin (digits : Nat) : Styled := .plain (blanks digits ++ " ")

def numberedMargin (digits number : Nat) : Styled :=
  .within frame (alignRight digits (naturalText number)) ++ .plain " "

def border : Styled := .within frame "│"

/-- A mark in the two columns between the border and the source. -/
def gutterMark (accent : Style) (mark : String) : Styled :=
  .plain " " ++ .within accent mark

def gutterBlank : Styled := .plain "  "

/-- Writes glyphs, with a style on those inside the span. -/
def paint (accent : Style) (inside : Glyph → Bool) (content : Glyph → String) :
    Bool → List Glyph → Styled
  | active, [] => if active then [.style {}] else []
  | active, glyph :: rest =>
      let change : Styled :=
        if inside glyph && !active then [.style accent]
        else if !inside glyph && active then [.style {}]
        else []
      change ++ .plain (content glyph) ++ paint accent inside content (inside glyph) rest

/-- A source line behind its number. -/
def sourceRow (digits number : Nat) (gutter : Styled) (accent : Style)
    (inside : Glyph → Bool) (chars : List Char) : Styled :=
  numberedMargin digits number ++ border ++ gutter ++ .plain " " ++
    paint accent inside Glyph.shown false (glyphs chars) ++ .newline

def repeated (text : String) (count : Nat) : String :=
  String.join (List.replicate count text)

/-- The label behind what it belongs to. -/
def labelled (label : String) : String :=
  if label.isEmpty then "" else " " ++ label

/-! ## A span within one line -/

/-- Whether a glyph has a byte between two offsets. -/
def overlaps (start stop : Nat) (glyph : Glyph) : Bool :=
  max start glyph.index < min stop glyph.stop

/-- Stands behind the last character, so that carets can point there. -/
def lineEndGlyph (chars : List Char) : Glyph :=
  ⟨byteSize chars, '\x00', 1⟩

/-- The carets below a line, and blanks up to them. -/
def carets (start stop : Nat) (glyph : Glyph) : String :=
  if overlaps start stop glyph then repeated "^" glyph.width
  else if glyph.index < stop then blanks glyph.width
  else ""

def singleLine (snippet : Snippet) (digits number : Nat) (line : Line) : Styled :=
  let start := snippet.span.start - line.start
  let stop := max (snippet.span.stop - line.start) (start + 1)
  let inside := overlaps start stop
  let places := glyphs line.shown ++ [lineEndGlyph line.shown]
  let label : Styled :=
    if snippet.label.isEmpty then [] else .plain " " ++ .within snippet.accent snippet.label
  sourceRow digits number [] snippet.accent inside line.shown ++
    margin digits ++ border ++ .plain " " ++
    paint snippet.accent inside (carets start stop) false places ++ label ++ .newline

/-! ## A span over several lines -/

/-- Bytes of white space at the front. -/
def leadingBlank (chars : List Char) : Nat :=
  byteSize (chars.takeWhile isWhiteSpace)

/-- A rule under the glyphs that start before an offset, with a caret at its end. -/
def ruleRow (snippet : Snippet) (digits : Nat) (corner : String) (stop : Nat) (label : String)
    (chars : List Char) : Styled :=
  let width := columns ((glyphs chars).takeWhile (·.index < stop))
  margin digits ++ border ++ gutterMark snippet.accent corner ++
    .within snippet.accent (repeated "─" width ++ "^" ++ label) ++ .newline

/-- The line where the span starts. If nothing but blanks stands before the span, the
bar starts beside the line, otherwise on a row below it. -/
def firstRows (snippet : Snippet) (digits number : Nat) (line : Line) : Styled :=
  let start := snippet.span.start - line.start
  let inside (glyph : Glyph) : Bool := start ≤ glyph.index
  if start ≤ leadingBlank line.shown then
    sourceRow digits number (gutterMark snippet.accent "╭") snippet.accent inside line.shown
  else
    sourceRow digits number gutterBlank snippet.accent inside line.shown ++
      ruleRow snippet digits "╭" (start + 1) "" line.shown

/-- A line that the span covers whole. -/
def middleRow (snippet : Snippet) (digits number : Nat) (line : Line) : Styled :=
  let inside (_ : Glyph) : Bool := true
  sourceRow digits number (gutterMark snippet.accent "│") snippet.accent inside line.shown

/-- Stands for lines that are left out. -/
def breakRow (snippet : Snippet) (digits : Nat) : Styled :=
  margin digits ++ .within frame "·" ++ gutterMark snippet.accent "│" ++ .newline

/-- The line where the span ends. -/
def lastRows (snippet : Snippet) (digits number : Nat) (line : Line) : Styled :=
  let stop := snippet.span.stop - line.start
  let inside (glyph : Glyph) : Bool := glyph.stop ≤ stop
  sourceRow digits number (gutterMark snippet.accent "│") snippet.accent inside line.shown ++
    ruleRow snippet digits "╰" stop (labelled snippet.label) line.shown

/-- Lines shown behind the first one. -/
def linesAfterFirst : Nat := 3

/-- Lines shown before the last one. -/
def linesBeforeLast : Nat := 1

/-- Numbered lines between the first and the last one. Of many, only those near
either end are shown. -/
def middleRows (snippet : Snippet) (digits : Nat) (middle : List (Nat × Line)) : Styled :=
  let row := fun (numbered : Nat × Line) => middleRow snippet digits numbered.1 numbered.2
  let front := middle.take linesAfterFirst
  let behind := middle.drop linesAfterFirst
  let hidden := behind.take (behind.length - linesBeforeLast)
  let back := behind.drop (behind.length - linesBeforeLast)
  let gap :=
    match hidden with
    | [] => []
    | [numbered] => row numbered
    | _ => breakRow snippet digits
  front.flatMap row ++ gap ++ back.flatMap row

/-! ## The whole drawing -/

def draw (snippet : Snippet) : Styled :=
  let lines := lines snippet.text
  let first := lineIndex lines snippet.span.start
  let last := lineIndex lines snippet.span.stop
  let line (index : Nat) : Line := lines.getD index default
  let digits := (naturalText (last + 1)).length
  let place := snippet.name ++ ":" ++ naturalText (first + 1) ++ ":" ++
    naturalText ((line first).column snippet.span.start)
  let head := margin digits ++ .within frame "┌─" ++ .plain (" " ++ place) ++ .newline
  let body :=
    if first = last then
      margin digits ++ border ++ .newline ++ singleLine snippet digits (first + 1) (line first)
    else
      let middle := (List.range (last - first - 1)).map fun index =>
        (first + index + 2, line (first + index + 1))
      margin digits ++ border ++ gutterBlank ++ .newline ++
        firstRows snippet digits (first + 1) (line first) ++
        middleRows snippet digits middle ++
        lastRows snippet digits (last + 1) (line last)
  head ++ body ++ .newline

end Snippet

end Abacus
