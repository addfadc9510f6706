/-! # Cursors

The lexer's view of a source. A source is a row of pulls: each gives a character
with its offset, or reports that there is none at the moment. Behind the last
pull every further one reports that there is none.

A pull without a character stands one past the offset before it. So the end of a
source stands one past the start of its last character, whatever the width of
that character, and the end of an empty source stands at 1.

Offsets have no bound here. `Lookahead` holds them in 32 bits. -/

namespace Abacus

/-- What one pull from a source gives. -/
abbrev Pull := Option (Nat × Char)

/-- A pull together with the offset it stands at. -/
structure Cell where
  offset : Nat
  char : Option Char
deriving DecidableEq, Inhabited

namespace Cell

def satisfies (cell : Cell) (property : Char → Bool) : Bool :=
  cell.char.any property

end Cell

/-- The cells from the current one on, and the offset of the end behind them. -/
structure Cursor where
  cells : List Cell
  stop : Nat
deriving DecidableEq, Inhabited

namespace Cursor

/-- The cursor at the front of the pulls that follow an offset. -/
def after (previous : Nat) : List Pull → Cursor
  | [] => ⟨[], previous + 1⟩
  | none :: rest =>
      let behind := after (previous + 1) rest
      ⟨⟨previous + 1, none⟩ :: behind.cells, behind.stop⟩
  | some (offset, char) :: rest =>
      let behind := after offset rest
      ⟨⟨offset, some char⟩ :: behind.cells, behind.stop⟩

def ofPulls (pulls : List Pull) : Cursor := after 0 pulls

/-- A cursor over characters at offsets of the caller's choice. -/
def ofPairs (pairs : List (Nat × Char)) : Cursor :=
  ofPulls (pairs.map some)

/-- The characters of a text with the byte offsets they stand at. -/
def offsetsFrom (offset : Nat) : List Char → List (Nat × Char)
  | [] => []
  | char :: rest => (offset, char) :: offsetsFrom (offset + char.utf8Size) rest

def ofText (text : String) : Cursor :=
  ofPairs (offsetsFrom 0 text.toList)

/-- Where the current cell stands. -/
def offset (cursor : Cursor) : Nat :=
  match cursor.cells with
  | [] => cursor.stop
  | cell :: _ => cell.offset

/-- Where the cell behind the current one stands. -/
def nextOffset (cursor : Cursor) : Nat :=
  match cursor.cells with
  | [] => cursor.stop + 1
  | [_] => cursor.stop
  | _ :: cell :: _ => cell.offset

/-- Whether there is a current character and it has a property. -/
def startsWith (cursor : Cursor) (property : Char → Bool) : Bool :=
  cursor.cells.head?.any (·.satisfies property)

/-- The characters at the front that have a property. -/
def run (property : Char → Bool) (cursor : Cursor) : String :=
  String.ofList ((cursor.cells.takeWhile (·.satisfies property)).filterMap (·.char))

/-- The cursor behind the characters at the front that have a property. -/
def skipRun (property : Char → Bool) (cursor : Cursor) : Cursor :=
  { cursor with cells := cursor.cells.dropWhile (·.satisfies property) }

/-- The cursor behind the current line, and the offset where the line ends. The
newline is stepped over and does not belong to the line. A cell without a
character ends the line as well and is stepped over too. -/
def skipLine (stop : Nat) : List Cell → Nat × Cursor
  | [] => (stop, ⟨[], stop + 1⟩)
  | ⟨offset, none⟩ :: rest => (offset, ⟨rest, stop⟩)
  | ⟨offset, some char⟩ :: rest =>
      if char = '\n' then (offset, ⟨rest, stop⟩) else skipLine stop rest

theorem length_cells_after (previous : Nat) (pulls : List Pull) :
    (after previous pulls).cells.length = pulls.length := by
  induction pulls generalizing previous with
  | nil => rfl
  | cons pull rest induction =>
      match pull with
      | none => simp [after, induction]
      | some (offset, char) => simp [after, induction]

theorem length_skipRun_le (property : Char → Bool) (cursor : Cursor) :
    (cursor.skipRun property).cells.length ≤ cursor.cells.length :=
  (List.dropWhile_suffix _).length_le

theorem length_skipLine_le (stop : Nat) (cells : List Cell) :
    (skipLine stop cells).2.cells.length ≤ cells.length := by
  induction cells with
  | nil => simp [skipLine]
  | cons cell rest induction =>
      match cell with
      | ⟨offset, none⟩ => simp [skipLine]
      | ⟨offset, some char⟩ =>
          simp only [skipLine]
          split
          · simp
          · simp only [List.length_cons]
            omega

end Cursor

end Abacus
