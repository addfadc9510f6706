import Abacus.Text.DefaultIgnorable
import Abacus.Text.EastAsianWide
import Abacus.Text.GraphemeExtend

/-! # Glyphs

How many columns of a terminal characters take. A tab reaches to the next multiple
of four columns. -/

namespace Abacus.Text

/-- Characters with a width of their own: a leading consonant that only keeps its
place, two Khmer signs that stand for several letters, and a joiner that is drawn. -/
def singularWidth? (char : Char) : Option Nat :=
  match char.toNat with
  | 0x115F => some 2
  | 0x17A4 => some 2
  | 0x17D8 => some 3
  | 0x2D7F => some 1
  | _ => none

def controls : Ranges := [(0x0000, 0x001F), (0x007F, 0x009F)]

/-- Hangul vowels and trailing consonants. They are drawn within the syllable whose
leading consonant stands before them. -/
def hangulTail : Ranges := [(0x1160, 0x11FF), (0xD7B0, 0xD7C6), (0xD7CB, 0xD7FB)]

/-- Vowel signs that are made up of two extenders. -/
def compositeExtend : Ranges :=
  [(0x0CC0, 0x0CC0), (0x0CC7, 0x0CC8), (0x0CCA, 0x0CCB), (0x1B3B, 0x1B3B), (0x1B3D, 0x1B3D),
   (0x1B43, 0x1B43)]

/-- Marks that are drawn over or under the characters behind them. -/
def spanningMarks : Ranges :=
  [(0x0605, 0x0605), (0x070F, 0x070F), (0x0890, 0x0891), (0x08E2, 0x08E2), (0xA8FA, 0xA8FA)]

/-- Letters that join the consonant behind them. -/
def prefixedConsonants : Ranges :=
  [(0x0D4E, 0x0D4E), (0x111C2, 0x111C3), (0x1193F, 0x1193F), (0x11941, 0x11941),
   (0x11A3A, 0x11A3A), (0x11A84, 0x11A89), (0x11D46, 0x11D46), (0x11F02, 0x11F02)]

/-- The characters that take no column. -/
def zeroWidth : List Ranges :=
  [controls, graphemeExtend, defaultIgnorable, hangulTail, compositeExtend, spanningMarks,
   prefixedConsonants]

def isPrintableAscii (char : Char) : Bool :=
  0x20 ≤ char.toNat && char.toNat < 0x7F

/-- Most characters take one column, some none and some two. -/
def displayWidth (char : Char) : Nat :=
  if isPrintableAscii char then 1
  else
    match singularWidth? char with
    | some width => width
    | none =>
        if zeroWidth.any (·.contains char) then 0
        else if eastAsianWide.contains char then 2
        else 1

/-- A character of a line, with its place in the line and the columns it takes. -/
structure Glyph where
  /-- The byte offset in the line. -/
  index : Nat
  char : Char
  width : Nat
deriving DecidableEq, Inhabited

namespace Glyph

/-- The byte offset behind the character. -/
def stop (glyph : Glyph) : Nat := glyph.index + glyph.char.utf8Size

/-- The character as it is shown: tabs are shown as blanks. -/
def shown (glyph : Glyph) : String :=
  if glyph.char = '\t' then String.ofList (List.replicate glyph.width ' ')
  else glyph.char.toString

end Glyph

/-- Columns from one tab stop to the next. -/
def tabStop : Nat := 4

/-- The glyphs of characters from a byte offset and a column on. -/
def glyphsFrom (index column : Nat) : List Char → List Glyph
  | [] => []
  | char :: rest =>
      let width := if char = '\t' then tabStop - column % tabStop else displayWidth char
      ⟨index, char, width⟩ :: glyphsFrom (index + char.utf8Size) (column + width) rest

def glyphs (chars : List Char) : List Glyph := glyphsFrom 0 0 chars

/-- The columns that glyphs take together. -/
def columns : List Glyph → Nat
  | [] => 0
  | glyph :: rest => glyph.width + columns rest

/-- The bytes that characters take together. -/
def byteSize : List Char → Nat
  | [] => 0
  | char :: rest => char.utf8Size + byteSize rest

end Abacus.Text
