/-! # Lines

A text cut behind every newline. The last line is the one without a newline, and
it may be empty. -/

namespace Abacus.Text

structure Line where
  /-- The byte offset of the first character. -/
  start : Nat
  /-- The characters, with the newline. -/
  chars : List Char
deriving DecidableEq, Inhabited

/-- The lines of characters that start at an offset. -/
def linesFrom (start : Nat) : List Char → List Line
  | [] => [⟨start, []⟩]
  | char :: rest =>
      let further := linesFrom (start + char.utf8Size) rest
      if char = '\n' then ⟨start, [char]⟩ :: further
      else
        match further with
        | [] => [⟨start, [char]⟩]
        | line :: more => ⟨start, char :: line.chars⟩ :: more

def lines (text : String) : List Line := linesFrom 0 text.toList

/-- The index of the last line that starts at or before an offset. -/
def lineIndex (lines : List Line) (offset : Nat) : Nat :=
  (lines.takeWhile (·.start ≤ offset)).length - 1

namespace Line

/-- How many of the characters end at or before an offset, counted from the start of
the line. -/
def charsBefore (index offset : Nat) : List Char → Nat
  | [] => 0
  | char :: rest =>
      if index + char.utf8Size ≤ offset then
        1 + charsBefore (index + char.utf8Size) offset rest
      else 0

/-- The column of an offset, counted from one. -/
def column (line : Line) (offset : Nat) : Nat :=
  1 + charsBefore line.start offset line.chars

/-- The characters to be shown: line ends and null characters at the end are not. -/
def shown (line : Line) : List Char :=
  (line.chars.reverse.dropWhile fun char => ['\n', '\r', '\x00'].contains char).reverse

end Line

end Abacus.Text
