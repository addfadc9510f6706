import Abacus.Cursor
import Abacus.LexicalError
import Abacus.Text.WhiteSpace
import Abacus.Token

/-! # The lexer

One item at a time is read off the front of a cursor: a token at its span, or a
lexical error. Blanks are passed over, and so are characters that no token starts
with, unless the mode is strict. The end of the source is a token too, and the
cursor stays there. -/

namespace Abacus

inductive Mode
  /-- Characters that no token starts with are passed over. -/
  | permissive
  /-- Characters that no token starts with are errors. -/
  | strict
deriving DecidableEq, Inhabited

/-- What the lexer reads: a token at its span, or an error. -/
inductive Item
  | read (lexeme : Lexeme)
  | failed (error : LexicalError)
deriving DecidableEq, Inhabited

namespace Item

def ofToken (token : Token) (start stop : Nat) : Item := read ⟨token, ⟨start, stop⟩⟩

def ofCause (cause : LexicalCause) (start stop : Nat) : Item := failed ⟨cause, ⟨start, stop⟩⟩

def isEnd : Item → Bool
  | read ⟨.eof, _⟩ => true
  | _ => false

end Item

/-! ## Characters -/

/-- The tokens of one character. -/
def symbol? : Char → Option Token
  | '+' => some .plus
  | '-' => some .minus
  | '*' => some .star
  | '=' => some .equals
  | '(' => some .leftParen
  | ')' => some .rightParen
  | ';' => some .semicolon
  | _ => none

/-- ASCII letters and the underscore. -/
def isNameStart (char : Char) : Bool := char.isAlpha || char == '_'

/-- ASCII letters and digits and the underscore. -/
def isNamePart (char : Char) : Bool := char.isAlphanum || char == '_'

/-- What a character at the front of the source leads to. -/
inductive CharClass
  | symbol (token : Token)
  | name
  | digit
  | blank
  | other
deriving DecidableEq

def CharClass.of (char : Char) : CharClass :=
  match symbol? char with
  | some token => .symbol token
  | none =>
      if isNameStart char then .name
      else if char.isDigit then .digit
      else if Text.isWhiteSpace char then .blank
      else .other

/-! ## One item -/

namespace Cursor

/-- The numeral that starts at `start` with the digit `first`. A zero is a numeral of
its own, and it is an error if a digit follows it. -/
def scanNumber (start : Nat) (first : Char) (rest : Cursor) : Item × Cursor :=
  if first = '0' then
    if rest.startsWith Char.isDigit then
      let (lineEnd, behind) := skipLine rest.stop rest.cells
      (.ofCause .leadingZero start lineEnd, behind)
    else (.ofToken (.int "0") start rest.offset, rest)
  else
    let behind := rest.skipRun Char.isDigit
    let digits := first.toString ++ rest.run Char.isDigit
    (.ofToken (.int digits) start behind.offset, behind)

/-- The next item of the cells before an end, and the cursor behind it. -/
def scanCells (mode : Mode) (stop : Nat) : List Cell → Item × Cursor
  | [] => (.ofToken .eof stop stop, ⟨[], stop⟩)
  | ⟨start, none⟩ :: rest => (.ofToken .eof start start, ⟨⟨start, none⟩ :: rest, stop⟩)
  | ⟨start, some char⟩ :: rest =>
      let behind : Cursor := ⟨rest, stop⟩
      match CharClass.of char with
      | .symbol token => (.ofToken token start behind.offset, behind)
      | .name =>
          let final := behind.skipRun isNamePart
          let name := char.toString ++ behind.run isNamePart
          (.ofToken (.ident name) start final.offset, final)
      | .digit => scanNumber start char behind
      | .blank => scanCells mode stop rest
      | .other =>
          match mode with
          | .permissive => scanCells mode stop rest
          | .strict => (.ofCause (.unrecognized char) start behind.offset, behind)

/-- The next item, and the cursor behind it. -/
def scan (mode : Mode) (cursor : Cursor) : Item × Cursor :=
  scanCells mode cursor.stop cursor.cells

theorem length_scanNumber_le (start : Nat) (first : Char) (rest : Cursor) :
    (scanNumber start first rest).2.cells.length ≤ rest.cells.length := by
  unfold scanNumber
  split
  · split
    · exact length_skipLine_le rest.stop rest.cells
    · exact Nat.le_refl _
  · exact length_skipRun_le _ rest

theorem length_scanCells_lt (mode : Mode) (stop : Nat) (cells : List Cell)
    (unfinished : (scanCells mode stop cells).1.isEnd = false) :
    (scanCells mode stop cells).2.cells.length < cells.length := by
  induction cells with
  | nil => simp [scanCells, Item.ofToken, Item.isEnd] at unfinished
  | cons cell rest induction =>
      match cell with
      | ⟨start, none⟩ => simp [scanCells, Item.ofToken, Item.isEnd] at unfinished
      | ⟨start, some char⟩ =>
          simp only [scanCells] at unfinished ⊢
          cases charClass : CharClass.of char with
          | symbol token => simp
          | name => exact Nat.lt_succ_of_le (length_skipRun_le isNamePart ⟨rest, stop⟩)
          | digit => exact Nat.lt_succ_of_le (length_scanNumber_le start char ⟨rest, stop⟩)
          | blank =>
              simp only [charClass] at unfinished ⊢
              exact Nat.lt_succ_of_lt (induction unfinished)
          | other =>
              simp only [charClass] at unfinished ⊢
              cases mode with
              | permissive => exact Nat.lt_succ_of_lt (induction unfinished)
              | strict => simp

/-- Every item but the end uses up a cell. -/
theorem length_scan_lt {mode : Mode} {cursor : Cursor}
    (unfinished : (cursor.scan mode).1.isEnd = false) :
    (cursor.scan mode).2.cells.length < cursor.cells.length :=
  length_scanCells_lt mode cursor.stop cursor.cells unfinished

/-- All items up to the end, and the cursor at the end. -/
def drain (mode : Mode) (cursor : Cursor) : List Item × Cursor :=
  let step := cursor.scan mode
  if _unfinished : step.1.isEnd = false then
    let further := drain mode step.2
    (step.1 :: further.1, further.2)
  else ([step.1], step.2)
termination_by cursor.cells.length
decreasing_by exact length_scan_lt _unfinished

theorem drain_of_unfinished {mode : Mode} {cursor : Cursor}
    (unfinished : (cursor.scan mode).1.isEnd = false) :
    cursor.drain mode =
      ((cursor.scan mode).1 :: ((cursor.scan mode).2.drain mode).1,
        ((cursor.scan mode).2.drain mode).2) := by
  conv =>
    lhs
    rw [drain]
  exact dif_pos unfinished

theorem drain_of_isEnd {mode : Mode} {cursor : Cursor}
    (ended : (cursor.scan mode).1.isEnd = true) :
    cursor.drain mode = ([(cursor.scan mode).1], (cursor.scan mode).2) := by
  rw [drain]
  exact dif_neg (by simp [ended])

end Cursor

/-- All items of a text, the end included. -/
def lex (mode : Mode) (text : String) : List Item :=
  ((Cursor.ofText text).drain mode).1

/-- The longest name and the longest numeral are taken. -/
example : lex .strict "1ab=02\n;" =
    [.ofToken (.int "1") 0 1, .ofToken (.ident "ab") 1 3, .ofToken .equals 3 4,
     .ofCause .leadingZero 4 6, .ofToken .semicolon 7 8, .ofToken .eof 8 8] := by
  decide +kernel

/-! ## Item by item -/

/-- A lexer in the middle of its work. -/
structure Lexer where
  cursor : Cursor
  mode : Mode
  finished : Bool
deriving DecidableEq, Inhabited

namespace Lexer

def start (cursor : Cursor) : Lexer := ⟨cursor, .permissive, false⟩

def setMode (lexer : Lexer) (mode : Mode) : Lexer := { lexer with mode }

/-- Reads an item, again the end if the end was already reached. -/
def nextItem (lexer : Lexer) : Item × Lexer :=
  let (item, cursor) := lexer.cursor.scan lexer.mode
  (item, { lexer with cursor, finished := lexer.finished || item.isEnd })

/-- Reads an item, and nothing once the end was read. -/
def next? (lexer : Lexer) : Option Item × Lexer :=
  if lexer.finished then (none, lexer)
  else
    let (item, after) := lexer.nextItem
    (some item, after)

end Lexer

end Abacus
