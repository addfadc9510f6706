import Abacus.Lookahead
import Abacus.Proofs.Finishing
import Abacus.Proofs.Layout

/-! # Offsets of 32 bits

The offsets that a lexer holds in 32 bits are those of a cursor, cut off. Where an addition that
does not fit gives nothing, a lexer gets as far as the next offset of the cursor fits. In a text
that is a little shorter than what 32 bits can count, the offsets are those of the cursor at every
pull, however the lexer is asked. -/

namespace Abacus

namespace Lookahead

theorem add?_of_lt {first second : UInt32} (fits : first.toNat + second.toNat < UInt32.size) :
    add? first second = some (first + second) := if_pos fits

theorem toNat_add_of_lt {first second : UInt32}
    (fits : first.toNat + second.toNat < UInt32.size) :
    (first + second).toNat = first.toNat + second.toNat := by
  rw [UInt32.toNat_add]
  exact Nat.mod_eq_of_lt fits

/-- Pulls that give nothing where a sum does not fit. -/
def pulls (count : Nat) (ahead : Lookahead) : Option Lookahead := ahead.advanceBy .halts count

/-! ## Sources -/

/-- An offset cut off to 32 bits. -/
def narrow (pair : Nat × Char) : UInt32 × Char := (UInt32.ofNat pair.1, pair.2)

/-- The characters with their byte offsets. -/
def indexed (chars : List Char) : List (UInt32 × Char) :=
  (Cursor.offsetsFrom 0 chars).map narrow

/-- The characters with the offsets that come of adding up their widths, from a total on. -/
def counted (total : UInt32) : List Char → Option (List (UInt32 × Char))
  | [] => some []
  | char :: rest => do
      let further ← add? total (UInt32.ofNat char.utf8Size)
      let pairs ← counted further rest
      return (further - UInt32.ofNat char.utf8Size, char) :: pairs

theorem counted_eq {total : UInt32} {chars : List Char}
    (fits : total.toNat + byteSize chars < UInt32.size) :
    counted total chars = some ((Cursor.offsetsFrom total.toNat chars).map narrow) := by
  induction chars generalizing total with
  | nil => rfl
  | cons char rest induction =>
      rw [byteSize_cons] at fits
      have width : (UInt32.ofNat char.utf8Size).toNat = char.utf8Size :=
        UInt32.toNat_ofNat_of_lt' (by omega)
      have sum : total.toNat + (UInt32.ofNat char.utf8Size).toNat < UInt32.size := by omega
      have grown := toNat_add_of_lt sum
      have fitsFurther : (total + UInt32.ofNat char.utf8Size).toNat + byteSize rest <
          UInt32.size := by
        omega
      have further := induction fitsFurther
      rw [grown, width] at further
      rw [counted, add?_of_lt sum, Option.bind_eq_bind, Option.bind_some, further,
        UInt32.add_sub_cancel, Cursor.offsetsFrom, List.map_cons, narrow, UInt32.ofNat_toNat]
      rfl

/-- Both ways to find the offsets of a text agree. -/
theorem counted_eq_indexed {text : String} (fits : text.utf8ByteSize < UInt32.size) :
    counted 0 text.toList = some (indexed text.toList) := by
  apply counted_eq
  rw [byteSize_toList]
  exact (Nat.zero_add _).symm ▸ fits

end Lookahead

/-! ## Cursors -/

namespace Cursor

/-- The end stands one past the last cell. -/
def Ends (cursor : Cursor) : Prop := ∀ cell ∈ cursor.cells.getLast?, cursor.stop = cell.offset + 1

theorem ends_advance {cursor : Cursor} (ends : cursor.Ends) : cursor.advance.Ends := by
  rcases cursor with ⟨cells, stop⟩
  cases cells with
  | nil =>
      intro cell member
      contradiction
  | cons first rest =>
      intro cell member
      apply ends
      rw [List.getLast?_cons]
      rw [advance] at member
      rw [Option.mem_def.mp member]
      rfl

/-- Where nothing is left to be pulled, the next offset is counted up. -/
theorem nextOffset_advance {cursor : Cursor} (ends : cursor.Ends)
    (none : cursor.cells.drop 2 = []) : cursor.advance.nextOffset = cursor.nextOffset + 1 := by
  rcases cursor with ⟨cells, stop⟩
  match cells with
  | [] => rfl
  | [_] => rfl
  | [_, cell] => exact ends cell rfl

/-- The cursor from which two pulls lead to the given one. -/
def unpulled (cursor : Cursor) : Cursor := ⟨⟨0, none⟩ :: ⟨0, none⟩ :: cursor.cells, cursor.stop⟩

theorem advanceBy_unpulled (cursor : Cursor) : cursor.unpulled.advanceBy 2 = cursor := rfl

theorem ends_unpulled (pairs : List (Nat × Char)) : (ofPairs pairs).unpulled.Ends := by
  have equal : ofPairs pairs = _ := after_pairs 0 pairs
  intro cell member
  rw [unpulled, equal] at member ⊢
  rw [List.getLast?_cons, List.getLast?_cons, List.getLast?_map] at member
  cases last : pairs.getLast? with
  | none =>
      rw [last] at member
      cases member
      rfl
  | some pair =>
      rw [last] at member
      cases member
      rfl

/-- The cursor from which two pulls lead to the front of a text. -/
def unread (text : String) : Cursor :=
  ⟨⟨0, none⟩ :: ⟨0, none⟩ :: (ofText text).cells, (ofText text).stop⟩

theorem advanceBy_unread (text : String) : (unread text).advanceBy 2 = ofText text := rfl

theorem drop_cellsFrom (offset count : Nat) (chars : List Char) :
    (cellsFrom offset chars).drop count =
      cellsFrom (offset + byteSize (chars.take count)) (chars.drop count) := by
  induction chars generalizing offset count with
  | nil =>
      rw [List.take_nil, List.drop_nil]
      exact List.drop_nil
  | cons char chars induction =>
      cases count with
      | zero => rfl
      | succ count =>
          rw [cellsFrom_cons, List.drop_succ_cons, induction, List.take_succ_cons,
            byteSize_cons, Nat.add_assoc, List.drop_succ_cons]

theorem cells_advanceBy_unread (text : String) (count : Nat) :
    ((unread text).advanceBy (count + 2)).cells =
      cellsFrom (byteSize (text.toList.take count)) (text.toList.drop count) := by
  rw [Nat.add_comm, advanceBy_add, advanceBy_unread, advanceBy_eq, ofText_eq_cellsFrom,
    drop_cellsFrom, Nat.zero_add]

theorem length_ofText (text : String) : (ofText text).cells.length = text.toList.length := by
  have length := congrArg List.length (holds_cellsFrom 0 text.toList)
  rw [List.length_map, List.length_map] at length
  rw [ofText_eq_cellsFrom, length]

/-- A current character stands behind the bytes of those that were pulled before it. -/
theorem exists_append_of_unread {text : String} {count : Nat} {char : Char}
    (current : ((unread text).advanceBy count).cells[0]?.bind (·.char) = some char) :
    ∃ before behind, text.toList = before ++ char :: behind ∧ count = before.length + 2 ∧
      ((unread text).advanceBy count).offset = byteSize before := by
  match count with
  | 0 => contradiction
  | 1 => contradiction
  | count + 2 =>
      have cells := cells_advanceBy_unread text count
      have split := List.take_append_drop count text.toList
      cases rest : text.toList.drop count with
      | nil =>
          rw [cells, rest] at current
          contradiction
      | cons first behind =>
          rw [rest, cellsFrom_cons] at cells
          rw [cells] at current
          cases current
          have left := congrArg List.length rest
          rw [List.length_drop, List.length_cons] at left
          rw [rest] at split
          refine ⟨text.toList.take count, behind, split.symm, ?_, ?_⟩
          · rw [List.length_take_of_le (by omega)]
          · rw [offset, cells]

/-! ## Bounds -/

theorem offset_le_of_mem_cellsFrom {offset : Nat} {chars : List Char} {cell : Cell}
    (member : cell ∈ cellsFrom offset chars) : cell.offset ≤ offset + byteSize chars := by
  induction chars generalizing offset with
  | nil => contradiction
  | cons char chars induction =>
      rw [byteSize_cons]
      rcases List.mem_cons.mp member with rfl | later
      · exact Nat.le_add_right ..
      · have further := induction later
        omega

/-- What bounds the cells and the end bounds the offsets. -/
theorem offset_le {cursor : Cursor} {bound : Nat}
    (cells : ∀ cell ∈ cursor.cells, cell.offset ≤ bound) (stop : cursor.stop ≤ bound) :
    cursor.offset ≤ bound ∧ cursor.nextOffset ≤ bound + 1 := by
  rcases cursor with ⟨row, final⟩
  match row with
  | [] => exact ⟨stop, Nat.succ_le_succ stop⟩
  | [first] => exact ⟨cells first (by simp), Nat.le_succ_of_le stop⟩
  | first :: second :: _ =>
      exact ⟨cells first (by simp), Nat.le_succ_of_le (cells second (by simp))⟩

/-- How often a lexer may pull from a text: twice at first, then once for each character, and once
past the end of a text that is not empty. -/
def mostPulls (text : String) : Nat := if text = "" then 2 else text.toList.length + 3

theorem stop_advanceBy_le {text : String} {count : Nat} (within : count ≤ mostPulls text) :
    ((unread text).advanceBy count).stop ≤ text.utf8ByteSize + 1 := by
  rw [advanceBy_eq]
  change (ofText text).stop + (count - ((ofText text).cells.length + 2)) ≤ _
  rw [length_ofText]
  -- The end of an empty text stands behind it, so there is no room for a pull past the end.
  by_cases empty : text = ""
  · subst empty
    have one : (ofText "").stop = 1 := rfl
    rw [mostPulls, if_pos rfl] at within
    omega
  · have ends := (EndsAt.ofText text).le_of_ne_nil (mt String.toList_eq_nil_iff.mp empty)
    rw [Nat.zero_add, byteSize_toList] at ends
    rw [mostPulls, if_neg empty] at within
    omega

/-- The offsets go past the end of the text by one and by two at most. -/
theorem offset_advanceBy_le {text : String} {count : Nat} (within : count ≤ mostPulls text) :
    ((unread text).advanceBy count).offset ≤ text.utf8ByteSize + 1 ∧
      ((unread text).advanceBy count).nextOffset ≤ text.utf8ByteSize + 2 := by
  apply offset_le
  · intro cell member
    rw [advanceBy_eq] at member
    have inside := List.mem_of_mem_drop member
    rw [unread, ofText_eq_cellsFrom, List.mem_cons, List.mem_cons] at inside
    rcases inside with rfl | rfl | later
    · exact Nat.zero_le _
    · exact Nat.zero_le _
    · have bound := offset_le_of_mem_cellsFrom later
      rw [byteSize_toList] at bound
      omega
  · exact stop_advanceBy_le within

end Cursor

/-! ## Cursors that fit -/

namespace Cursor

/-- The offsets of the cells fit into 32 bits. -/
def Narrow (cursor : Cursor) : Prop := ∀ cell ∈ cursor.cells, cell.offset < UInt32.size

theorem narrow_advance {cursor : Cursor} (narrow : cursor.Narrow) : cursor.advance.Narrow := by
  intro cell member
  rw [cells_advance] at member
  exact narrow cell (List.mem_of_mem_tail member)

theorem narrow_advanceBy {cursor : Cursor} (narrow : cursor.Narrow) (count : Nat) :
    (cursor.advanceBy count).Narrow := by
  induction count generalizing cursor with
  | zero => exact narrow
  | succ count induction => exact induction (narrow_advance narrow)

end Cursor

namespace Overflow

/-- A lexer gets to a cursor: the next offset of the cursor fits, or it does not have to. -/
def Allows (overflow : Overflow) (cursor : Cursor) : Prop :=
  overflow = .wraps ∨ cursor.nextOffset < UInt32.size

instance (overflow : Overflow) (cursor : Cursor) : Decidable (overflow.Allows cursor) :=
  inferInstanceAs (Decidable (_ ∨ _))

variable {overflow : Overflow} {cursor : Cursor}

/-- Past the end the offsets only grow, so a lexer that is stopped there stays so. -/
theorem allows_of_advance (narrow : cursor.Narrow) (allowed : overflow.Allows cursor.advance) :
    overflow.Allows cursor := by
  refine allowed.imp_right fun fits => ?_
  rcases cursor with ⟨cells, stop⟩
  match cells with
  | [] => exact Nat.lt_of_succ_lt fits
  | [_] => exact Nat.lt_of_succ_lt fits
  | _ :: cell :: _ => exact narrow cell (by simp)

theorem allows_of_advanceBy (narrow : cursor.Narrow) {count : Nat}
    (allowed : overflow.Allows (cursor.advanceBy count)) : overflow.Allows cursor := by
  induction count generalizing cursor with
  | zero => exact allowed
  | succ count induction =>
      exact allows_of_advance narrow (induction (Cursor.narrow_advance narrow) allowed)

theorem sum_one (offset : Nat) (fits : overflow = .wraps ∨ offset < UInt32.size) :
    overflow.sum (UInt32.ofNat offset) 1 =
      if overflow = .wraps ∨ offset + 1 < UInt32.size then some (UInt32.ofNat (offset + 1))
      else none := by
  cases overflow with
  | wraps => simp [sum, UInt32.ofNat_add]
  | halts =>
      have small : offset < UInt32.size := fits.resolve_left (by decide)
      have same : (UInt32.ofNat offset).toNat = offset := UInt32.toNat_ofNat_of_lt' small
      simp [sum, Lookahead.add?, same, UInt32.ofNat_add]

end Overflow

/-! ## Following a cursor -/

/-- Nothing is given if a lexer may not get to a cursor, and something good otherwise. -/
inductive Follows (overflow : Overflow) (cursor : Cursor) (good : α → Prop) : Option α → Prop
  | reached {value : α} (allowed : overflow.Allows cursor) (holds : good value) :
      Follows overflow cursor good (some value)
  | halted (refused : ¬ overflow.Allows cursor) : Follows overflow cursor good none

/-- A known value comes with something good. -/
structure Returns (value : β) (good : α → Prop) (given : β × α) : Prop where
  value : given.1 = value
  holds : good given.2

namespace Follows

variable {overflow : Overflow} {cursor middle final : Cursor} {good : α → Prop}
  {goodAfter : β → Prop} {result : Option α}

theorem map (follows : Follows overflow cursor good result) {next : α → β}
    (step : ∀ value, good value → goodAfter (next value)) :
    Follows overflow cursor goodAfter (result.map next) := by
  cases follows with
  | reached allowed holds => exact .reached allowed (step _ holds)
  | halted refused => exact .halted refused

/-- One after the other, if what is stopped in the middle does not get to the end. -/
theorem bind (follows : Follows overflow middle good result) {next : α → Option β}
    (stays : overflow.Allows final → overflow.Allows middle)
    (step : ∀ value, good value → overflow.Allows middle →
      Follows overflow final goodAfter (next value)) :
    Follows overflow final goodAfter (result.bind next) := by
  cases follows with
  | reached allowed holds => exact step _ holds allowed
  | halted refused => exact .halted (mt stays refused)

theorem exists_of_allows (follows : Follows overflow cursor good result)
    (allowed : overflow.Allows cursor) : ∃ value, result = some value ∧ good value := by
  cases follows with
  | reached _ holds => exact ⟨_, rfl, holds⟩
  | halted refused => exact absurd allowed refused

theorem exists_some {value : β} {given : Option (β × α)}
    (follows : Follows overflow cursor (Returns value good) given)
    (allowed : overflow.Allows cursor) : ∃ after, given = some (value, after) ∧ good after := by
  rcases follows.exists_of_allows allowed with ⟨⟨_, after⟩, equal, rfl, holds⟩
  exact ⟨after, equal, holds⟩

theorem eq_none (follows : Follows overflow cursor good result)
    (refused : ¬ overflow.Allows cursor) : result = none := by
  cases follows with
  | reached allowed _ => exact absurd allowed refused
  | halted _ => rfl

end Follows

namespace Lookahead

/-- The offset of 32 bits without its bound. -/
def widen (pair : UInt32 × Char) : Nat × Char := (pair.1.toNat, pair.2)

/-- The characters are those of a cursor, and so are the offsets, cut off to 32 bits. -/
structure Tracks (ahead : Lookahead) (cursor : Cursor) : Prop where
  position : ahead.position = UInt32.ofNat cursor.offset
  nextPosition : ahead.nextPosition = UInt32.ofNat cursor.nextOffset
  char : ahead.char = cursor.cells[0]?.bind (·.char)
  nextChar : ahead.nextChar = cursor.cells[1]?.bind (·.char)
  input : (ahead.input.map widen).map Cursor.ofPair = cursor.cells.drop 2
  ends : cursor.Ends
  narrow : cursor.Narrow

theorem tracks_unread (pairs : List (UInt32 × Char)) :
    (unread pairs).Tracks (Cursor.ofPairs (pairs.map widen)).unpulled where
  position := rfl
  nextPosition := rfl
  char := rfl
  nextChar := rfl
  input := by
    have equal : Cursor.ofPairs (pairs.map widen) = _ := Cursor.after_pairs 0 _
    rw [equal]
    rfl
  ends := Cursor.ends_unpulled _
  narrow := by
    have equal : Cursor.ofPairs (pairs.map widen) = _ := Cursor.after_pairs 0 _
    intro cell member
    rw [Cursor.unpulled, equal, List.mem_cons, List.mem_cons, List.mem_map] at member
    rcases member with rfl | rfl | ⟨pair, member, rfl⟩
    · decide
    · decide
    · rcases List.mem_map.mp member with ⟨narrow, _, rfl⟩
      exact narrow.1.toNat_lt_size

/-- A pull leads to the next cell, as far as it is allowed to. -/
theorem follows_advance {overflow : Overflow} {ahead : Lookahead} {cursor : Cursor}
    (tracks : ahead.Tracks cursor) (allowed : overflow.Allows cursor) :
    Follows overflow cursor.advance (·.Tracks cursor.advance) (ahead.advance overflow) := by
  have position : ahead.nextPosition = UInt32.ofNat cursor.advance.offset := by
    rw [tracks.nextPosition, cursor.offset_advance]
  have char : ahead.nextChar = cursor.advance.cells[0]?.bind (·.char) := by
    rw [tracks.nextChar, cursor.cells_advance, List.getElem?_tail]
  have ends := Cursor.ends_advance tracks.ends
  have narrow := Cursor.narrow_advance tracks.narrow
  have input := tracks.input
  rw [advance]
  cases left : ahead.input with
  | nil =>
      -- Only here an offset comes of a sum, and not from the source.
      rw [left] at input
      have last := Cursor.nextOffset_advance tracks.ends input.symm
      have short := List.drop_eq_nil_iff.mp input.symm
      simp only [tracks.nextPosition, overflow.sum_one _ allowed, ← last]
      split
      · next fits =>
          refine .reached fits ⟨?_, rfl, char, ?_, ?_, ends, narrow⟩
          · rw [cursor.offset_advance]
          · rw [cursor.cells_advance, List.getElem?_tail, List.getElem?_eq_none short]
            rfl
          · rw [cursor.cells_advance, List.drop_tail, List.drop_of_length_le (by omega)]
            rfl
      · next refused => exact .halted refused
  | cons pair rest =>
      rw [left] at input
      rcases cursor with ⟨cells, stop⟩
      match cells with
      | _ :: _ :: cell :: _ =>
          cases input
          have fits : pair.1.toNat < UInt32.size := pair.1.toNat_lt_size
          exact .reached (.inr fits)
            ⟨position, UInt32.ofNat_toNat.symm, char, rfl, rfl, ends, narrow⟩

theorem follows_advanceBy {overflow : Overflow} {ahead : Lookahead} {cursor : Cursor}
    (tracks : ahead.Tracks cursor) (allowed : overflow.Allows cursor) (count : Nat) :
    Follows overflow (cursor.advanceBy count) (·.Tracks (cursor.advanceBy count))
      (ahead.advanceBy overflow count) := by
  induction count with
  | zero => exact .reached allowed tracks
  | succ count induction =>
      have narrow := Cursor.narrow_advanceBy tracks.narrow count
      rw [Cursor.advanceBy_succ, advanceBy]
      exact induction.bind (Overflow.allows_of_advance narrow) fun _ => follows_advance

/-! ## What is shown -/

/-- The offsets and the characters are those of a cursor. -/
structure Shows (ahead : Lookahead) (cursor : Cursor) : Prop where
  position : ahead.position.toNat = cursor.offset
  nextPosition : ahead.nextPosition.toNat = cursor.nextOffset
  char : ahead.char = cursor.cells[0]?.bind (·.char)
  nextChar : ahead.nextChar = cursor.cells[1]?.bind (·.char)
  input : ahead.input.map (fun pair => (⟨pair.1.toNat, some pair.2⟩ : Cell)) = cursor.cells.drop 2

theorem Tracks.shows {ahead : Lookahead} {cursor : Cursor} (tracks : ahead.Tracks cursor)
    (fits : cursor.offset < UInt32.size) (nextFits : cursor.nextOffset < UInt32.size) :
    ahead.Shows cursor where
  position := by rw [tracks.position, UInt32.toNat_ofNat_of_lt' fits]
  nextPosition := by rw [tracks.nextPosition, UInt32.toNat_ofNat_of_lt' nextFits]
  char := tracks.char
  nextChar := tracks.nextChar
  input := by
    rw [← tracks.input, List.map_map]
    rfl

theorem widen_indexed {text : String} (fits : text.utf8ByteSize < UInt32.size) :
    (indexed text.toList).map widen = Cursor.offsetsFrom 0 text.toList := by
  rw [indexed, List.map_map]
  conv => rhs; rw [← List.map_id (Cursor.offsetsFrom 0 text.toList)]
  apply List.map_congr_left
  intro pair member
  have cell : Cursor.ofPair pair ∈ Cursor.cellsFrom 0 text.toList := List.mem_map_of_mem member
  have bound := Cursor.offset_le_of_mem_cellsFrom cell
  rw [byteSize_toList, Nat.zero_add] at bound
  have kept : (UInt32.ofNat pair.1).toNat = pair.1 :=
    UInt32.toNat_ofNat_of_lt' (Nat.lt_of_le_of_lt bound fits)
  rw [Function.comp_apply, narrow, widen, kept]
  rfl

/-- No sum fails to fit. -/
theorem exists_pulls_of_le {text : String} (short : text.utf8ByteSize + 3 ≤ UInt32.size)
    {count : Nat} (within : count ≤ Cursor.mostPulls text) :
    ∃ ahead, (unread (indexed text.toList)).pulls count = some ahead ∧
      ahead.Shows ((Cursor.unread text).advanceBy count) := by
  have tracks : (unread (indexed text.toList)).Tracks (.unread text) := by
    have begun := tracks_unread (indexed text.toList)
    rwa [widen_indexed (by omega)] at begun
  have bounds := Cursor.offset_advanceBy_le within
  have fits : Overflow.halts.Allows ((Cursor.unread text).advanceBy count) := .inr (by omega)
  have first := Overflow.allows_of_advanceBy tracks.narrow fits
  rcases (follows_advanceBy tracks first count).exists_of_allows fits with ⟨ahead, pulled, reached⟩
  exact ⟨ahead, pulled, reached.shows (by omega) (by omega)⟩

end Lookahead

/-- Whatever a lexer is asked to do, it pulls past the end of its text at most once, and never if
the text is empty. -/
theorem Lexer.exists_advanceBy_ofText (text : String) (operations : List Operation) :
    ∃ count, ((start (.ofText text)).after operations).cursor =
      (Cursor.ofText text).advanceBy count ∧ 2 + count ≤ Cursor.mostPulls text := by
  rcases exists_advanceBy_of_after (start (.ofText text)) operations with ⟨count, equal, bound⟩
  refine ⟨count, equal, ?_⟩
  change count ≤ (Cursor.ofText text).cells.length ∨
    (Cursor.ofText text).cells ≠ [] ∧ count = (Cursor.ofText text).cells.length + 1 at bound
  rw [← List.length_pos_iff, Cursor.length_ofText] at bound
  rw [Cursor.mostPulls]
  split
  · next empty =>
      have none : text.toList.length = 0 := by simp [empty]
      omega
  · omega

/-- Where 32 bits can count three more than the bytes of a text, every sum fits: those that give the
offsets from the widths, and those of all pulls of a lexer, whatever it is asked. The offsets go
past the end of the text by one and by two at most. A current character stands at the offset it has
in the text. -/
theorem lookahead_fits (text : String) (short : text.utf8ByteSize + 3 ≤ UInt32.size)
    (operations : List Lexer.Operation) :
    Lookahead.counted 0 text.toList = some (Lookahead.indexed text.toList) ∧
    ∃ count, (∀ other, ((Lexer.start (.ofText text)).after operations).cursor =
        (Cursor.unread text).advanceBy other ↔ other = count) ∧
      ∀ index ≤ count, ∃ ahead,
        (Lookahead.unread (Lookahead.indexed text.toList)).pulls index = some ahead ∧
        ahead.Shows ((Cursor.unread text).advanceBy index) ∧
        ahead.position.toNat ≤ text.utf8ByteSize + 1 ∧
        ahead.nextPosition.toNat ≤ text.utf8ByteSize + 2 ∧
        ∀ char, ahead.char = some char → ∃ before behind,
          text.toList = before ++ char :: behind ∧ index = before.length + 2 ∧
          ahead.position.toNat = byteSize before := by
  refine ⟨Lookahead.counted_eq_indexed (by omega), ?_⟩
  rcases Lexer.exists_advanceBy_ofText text operations with ⟨count, cursor, within⟩
  have unread := cursor.trans (Cursor.advanceBy_add (.unread text) 2 count).symm
  refine ⟨2 + count, ?_, ?_⟩
  · intro other
    rw [unread, Cursor.advanceBy_inj]
    exact eq_comm
  · intro index before
    have pulled := Nat.le_trans before within
    have bounds := Cursor.offset_advanceBy_le pulled
    rcases Lookahead.exists_pulls_of_le short pulled with ⟨ahead, pulls, shows⟩
    refine ⟨ahead, pulls, shows, ?_, ?_, ?_⟩
    · rw [shows.position]
      exact bounds.1
    · rw [shows.nextPosition]
      exact bounds.2
    · intro char current
      rw [shows.position]
      exact Cursor.exists_append_of_unread (shows.char.symm.trans current)

/-- A lexer that gives up the last line of a text has pulled past its end, and the offsets are as
far behind the text as they can be. -/
theorem lookahead_fits_given_up :
    Lookahead.counted 0 "é01".toList = some [(0, 'é'), (2, '0'), (3, '1')] ∧
    (∃ ahead, (Lookahead.unread [(0, 'é'), (2, '0'), (3, '1')]).pulls 6 = some ahead ∧
      ahead.Shows ((Lexer.start (.ofText "é01")).after [.next]).cursor ∧
      ahead.position.toNat = "é01".utf8ByteSize + 1 ∧
      ahead.nextPosition.toNat = "é01".utf8ByteSize + 2) ∧
    ∃ ahead, (Lookahead.unread [(0, 'é'), (2, '0'), (3, '1')]).pulls 3 = some ahead ∧
      ahead.char = some '0' ∧ ahead.position.toNat = byteSize ['é'] := by
  rcases lookahead_fits "é01" (by decide) [.next] with ⟨counted, count, told, all⟩
  have cursor : ((Lexer.start (.ofText "é01")).after [.next]).cursor =
      (Cursor.unread "é01").advanceBy 6 := by
    decide +kernel
  cases (told 6).mp cursor
  rcases all 6 (Nat.le_refl 6) with ⟨ahead, pulls, shows, _⟩
  rcases all 3 (by decide) with ⟨earlier, pullsEarlier, showsEarlier, _, _, place⟩
  have current : earlier.char = some '0' := showsEarlier.char
  rcases place _ current with ⟨before, behind, text, index, position⟩
  refine ⟨counted, ⟨ahead, pulls, cursor ▸ shows, shows.position, shows.nextPosition⟩,
    earlier, pullsEarlier, current, ?_⟩
  match before with
  | [first] =>
      cases text
      exact position

end Abacus
