import Abacus.Proofs.Relocation
import Abacus.Proofs.Spelling

/-! # Lexing line by line

The lexer never looks behind a newline. No token goes on there, and a line that is
given up ends there. So the items of a text are those of its first line and those of
the rest, which stand as far behind as the first line is long. -/

namespace Abacus

namespace Cursor

/-! ## Moving a source -/

def shifted (amount : Nat) (cursor : Cursor) : Cursor :=
  ⟨cursor.cells.map fun cell => ⟨cell.offset + amount, cell.char⟩, cursor.stop + amount⟩

section Shifting

variable (amount : Nat)

theorem offset_shifted (cursor : Cursor) :
    (cursor.shifted amount).offset = cursor.offset + amount := by
  match cursor with
  | ⟨[], stop⟩ => rfl
  | ⟨cell :: cells, stop⟩ => rfl

theorem startsWith_shifted (property : Char → Bool) (cursor : Cursor) :
    (cursor.shifted amount).startsWith property = cursor.startsWith property := by
  match cursor with
  | ⟨[], stop⟩ => rfl
  | ⟨cell :: cells, stop⟩ => rfl

theorem run_shifted (property : Char → Bool) (cursor : Cursor) :
    (cursor.shifted amount).run property = cursor.run property := by
  simp only [run, shifted, List.takeWhile_map, List.filterMap_map]
  rfl

theorem skipRun_shifted (property : Char → Bool) (cursor : Cursor) :
    (cursor.shifted amount).skipRun property = (cursor.skipRun property).shifted amount := by
  simp only [skipRun, shifted, List.dropWhile_map]
  rfl

theorem skipLine_shifted (stop : Nat) (cells : List Cell) :
    skipLine (stop + amount) (shifted amount ⟨cells, stop⟩).cells =
      ((skipLine stop cells).1 + amount, (skipLine stop cells).2.shifted amount) := by
  induction cells with
  | nil => simp [shifted, skipLine, Nat.add_right_comm]
  | cons cell cells induction =>
      rcases cell with ⟨offset, char⟩
      cases char with
      | none => rfl
      | some char =>
          by_cases newline : char = '\n'
          · simp [shifted, skipLine, newline]
          · simp only [shifted, List.map_cons, skipLine, if_neg newline]
            exact induction

theorem scanNumber_shifted (start : Nat) (first : Char) (rest : Cursor) :
    scanNumber (start + amount) first (rest.shifted amount) =
      ((Relocation.shift amount).item (scanNumber start first rest).1,
        (scanNumber start first rest).2.shifted amount) := by
  simp only [scanNumber, startsWith_shifted, run_shifted, skipRun_shifted, offset_shifted]
  split
  · split
    · have line := skipLine_shifted amount rest.stop rest.cells
      change skipLine (rest.shifted amount).stop (rest.shifted amount).cells = _ at line
      rw [line]
      rfl
    · rfl
  · rfl

theorem scanCells_shifted (mode : Mode) (stop : Nat) (cells : List Cell) :
    scanCells mode (stop + amount) (shifted amount ⟨cells, stop⟩).cells =
      ((Relocation.shift amount).item (scanCells mode stop cells).1,
        (scanCells mode stop cells).2.shifted amount) := by
  induction cells with
  | nil => rfl
  | cons cell rest induction =>
      match cell with
      | ⟨start, none⟩ => rfl
      | ⟨start, some char⟩ =>
          have offset := offset_shifted amount ⟨rest, stop⟩
          simp only [shifted] at offset induction
          simp only [shifted, List.map_cons, scanCells]
          cases CharClass.of char with
          | symbol token =>
              simp only [offset]
              rfl
          | name =>
              have skipped := skipRun_shifted amount isNamePart ⟨rest, stop⟩
              have taken := run_shifted amount isNamePart ⟨rest, stop⟩
              simp only [shifted] at skipped taken
              have final := offset_shifted amount (skipRun isNamePart ⟨rest, stop⟩)
              simp only [shifted] at final
              simp only [skipped, taken, final]
              rfl
          | digit => exact scanNumber_shifted amount start char ⟨rest, stop⟩
          | blank => exact induction
          | other =>
              cases mode with
              | permissive => exact induction
              | strict =>
                  simp only [offset]
                  rfl

theorem scan_shifted (mode : Mode) (cursor : Cursor) :
    (cursor.shifted amount).scan mode =
      ((Relocation.shift amount).item (cursor.scan mode).1,
        (cursor.scan mode).2.shifted amount) :=
  scanCells_shifted amount mode cursor.stop cursor.cells

theorem drain_shifted (mode : Mode) (cursor : Cursor) :
    ((cursor.shifted amount).drain mode).1 =
      (cursor.drain mode).1.map (Relocation.shift amount).item := by
  induction cursor using scan_induction mode with
  | ended cursor atEnd =>
      have shiftedEnd : ((cursor.shifted amount).scan mode).1.isEnd = true := by
        rw [scan_shifted, Relocation.isEnd_item, atEnd]
      rw [drain_of_isEnd atEnd, drain_of_isEnd shiftedEnd, scan_shifted]
      rfl
  | unfinished cursor going induction =>
      have shiftedGoing : ((cursor.shifted amount).scan mode).1.isEnd = false := by
        rw [scan_shifted, Relocation.isEnd_item, going]
      rw [drain_of_unfinished going, drain_of_unfinished shiftedGoing, scan_shifted, induction]
      rfl

end Shifting

/-! ## What is left behind an item -/

theorem skipLine_suffix (stop : Nat) (cells : List Cell) :
    (skipLine stop cells).2.cells <:+ cells := by
  induction cells with
  | nil => exact List.suffix_rfl
  | cons cell cells induction =>
      match cell with
      | ⟨offset, none⟩ => exact List.suffix_cons _ _
      | ⟨offset, some char⟩ =>
          simp only [skipLine]
          split
          · exact List.suffix_cons _ _
          · exact induction.trans (List.suffix_cons _ _)

theorem scanNumber_suffix (start : Nat) (first : Char) (rest : Cursor) :
    (scanNumber start first rest).2.cells <:+ rest.cells := by
  unfold scanNumber
  split
  · split
    · exact skipLine_suffix rest.stop rest.cells
    · exact List.suffix_rfl
  · exact List.dropWhile_suffix _

theorem scanCells_suffix (mode : Mode) (stop : Nat) (cells : List Cell) :
    (scanCells mode stop cells).2.cells <:+ cells := by
  induction cells with
  | nil => exact List.suffix_rfl
  | cons cell rest induction =>
      match cell with
      | ⟨start, none⟩ => exact List.suffix_rfl
      | ⟨start, some char⟩ =>
          have skipped := induction.trans (List.suffix_cons ⟨start, some char⟩ rest)
          simp only [scanCells]
          cases CharClass.of char with
          | symbol token => exact List.suffix_cons _ _
          | name => exact (List.dropWhile_suffix _).trans (List.suffix_cons _ _)
          | digit =>
              exact (scanNumber_suffix start char ⟨rest, stop⟩).trans (List.suffix_cons _ _)
          | blank => exact skipped
          | other =>
              cases mode with
              | permissive => exact skipped
              | strict => exact List.suffix_cons _ _

/-! ## Lines before lines -/

/-- A line, a newline and what stands behind it. -/
def followedBy (line : Cursor) (offset : Nat) (behind : Cursor) : Cursor :=
  ⟨line.cells ++ ⟨offset, some '\n'⟩ :: behind.cells, behind.stop⟩

/-- What is left of a line, alone and with what stands behind it. When a line was given up
that has no end of its own, the newline was given up with it. -/
inductive Precedes (offset : Nat) (behind : Cursor) : Cursor → Cursor → Prop
  | newline (line : Cursor) : Precedes offset behind line (line.followedBy offset behind)
  | gone (stop : Nat) : Precedes offset behind ⟨[], stop⟩ behind

/-- All cells hold characters, as those of a text do. -/
def AllRead (cells : List Cell) : Prop := ∀ cell ∈ cells, cell.char ≠ none

theorem AllRead.of_suffix {cells rest : List Cell} (read : AllRead cells)
    (suffix : rest <:+ cells) : AllRead rest := by
  intro cell member
  exact read cell (suffix.mem member)

section Following

variable {mode : Mode} (offset : Nat) (behind : Cursor)

theorem run_followedBy {property : Char → Bool} (stops : property '\n' = false)
    (line : Cursor) : (line.followedBy offset behind).run property = line.run property := by
  rcases line with ⟨cells, stop⟩
  have taken : (cells ++ ⟨offset, some '\n'⟩ :: behind.cells).takeWhile (·.satisfies property) =
      cells.takeWhile (·.satisfies property) := by
    induction cells with
    | nil => exact List.takeWhile_cons_of_neg (by simp [Cell.satisfies, stops])
    | cons cell cells induction => rw [List.cons_append, List.takeWhile_cons, induction,
        List.takeWhile_cons]
  simp only [run, followedBy, taken]

theorem skipRun_followedBy {property : Char → Bool} (stops : property '\n' = false)
    (line : Cursor) :
    (line.followedBy offset behind).skipRun property =
      (line.skipRun property).followedBy offset behind := by
  rcases line with ⟨cells, stop⟩
  have dropped : (cells ++ ⟨offset, some '\n'⟩ :: behind.cells).dropWhile (·.satisfies property) =
      cells.dropWhile (·.satisfies property) ++ ⟨offset, some '\n'⟩ :: behind.cells := by
    induction cells with
    | nil => exact List.dropWhile_cons_of_neg (by simp [Cell.satisfies, stops])
    | cons cell cells induction =>
        rw [List.cons_append, List.dropWhile_cons, induction, List.dropWhile_cons]
        split <;> rfl
  simp only [skipRun, followedBy, dropped]

theorem startsWith_followedBy {property : Char → Bool} (stops : property '\n' = false)
    (line : Cursor) :
    (line.followedBy offset behind).startsWith property = line.startsWith property := by
  match line with
  | ⟨[], stop⟩ => exact stops
  | ⟨cell :: cells, stop⟩ => rfl

theorem precedes_skipLine (stop : Nat) {cells : List Cell} (read : AllRead cells) :
    Precedes offset behind (skipLine stop cells).2
      (skipLine behind.stop (followedBy ⟨cells, stop⟩ offset behind).cells).2 := by
  induction cells with
  | nil => exact .gone (stop + 1)
  | cons cell cells induction =>
      match cell with
      | ⟨start, none⟩ => exact absurd rfl (read _ List.mem_cons_self)
      | ⟨start, some char⟩ =>
          simp only [followedBy, List.cons_append, skipLine]
          split
          · exact .newline ⟨cells, stop⟩
          · exact induction (read.of_suffix (List.suffix_cons _ _))

theorem scanNumber_followedBy (start : Nat) (first : Char) {line : Cursor}
    (read : AllRead line.cells) :
    Relocation.erase.item (scanNumber start first (line.followedBy offset behind)).1 =
      Relocation.erase.item (scanNumber start first line).1 ∧
    Precedes offset behind (scanNumber start first line).2
      (scanNumber start first (line.followedBy offset behind)).2 := by
  have noDigit : Char.isDigit '\n' = false := by decide
  simp only [scanNumber, startsWith_followedBy offset behind noDigit,
    run_followedBy offset behind noDigit, skipRun_followedBy offset behind noDigit]
  split
  · split
    · exact ⟨rfl, precedes_skipLine offset behind line.stop read⟩
    · exact ⟨rfl, .newline line⟩
  · exact ⟨rfl, .newline _⟩

theorem isEnd_symbol {char : Char} {token : Token} (symbol : CharClass.of char = .symbol token)
    (start stop : Nat) : (Item.ofToken token start stop).isEnd = false := by
  have spelled := isSpelled_of_symbol? (CharClass.symbol?_of symbol)
  cases token <;> first | rfl | contradiction

theorem isEnd_scanNumber (start : Nat) (first : Char) (rest : Cursor) :
    (scanNumber start first rest).1.isEnd = false := by
  unfold scanNumber
  split
  · split <;> rfl
  · rfl

/-- Where a line alone gives its end, the item comes from behind it. -/
theorem scan_followedBy_of_isEnd {line : Cursor} (read : AllRead line.cells)
    (atEnd : (line.scan mode).1.isEnd = true) :
    (line.followedBy offset behind).scan mode = behind.scan mode := by
  rcases line with ⟨cells, stop⟩
  induction cells with
  | nil =>
      have newline : CharClass.of '\n' = .blank := by decide
      simp only [scan, followedBy, List.nil_append, scanCells, newline]
  | cons cell cells induction =>
      rcases cell with ⟨start, char⟩
      cases char with
      | none => exact absurd rfl (read _ List.mem_cons_self)
      | some char =>
          have skipped := induction (read.of_suffix (List.suffix_cons _ _))
          simp only [scan, followedBy, List.cons_append, scanCells] at atEnd skipped ⊢
          cases charClass : CharClass.of char with
          | symbol token => simp [charClass, isEnd_symbol charClass] at atEnd
          | name => simp [charClass, Item.ofToken, Item.isEnd] at atEnd
          | digit => simp [charClass, isEnd_scanNumber] at atEnd
          | blank =>
              simp only [charClass] at atEnd
              exact skipped atEnd
          | other =>
              simp only [charClass] at atEnd
              cases mode with
              | permissive => exact skipped atEnd
              | strict => contradiction

/-- Every other item of a line is the same with something behind the line. -/
theorem scan_followedBy {line : Cursor} (read : AllRead line.cells)
    (going : (line.scan mode).1.isEnd = false) :
    Relocation.erase.item ((line.followedBy offset behind).scan mode).1 =
      Relocation.erase.item (line.scan mode).1 ∧
    Precedes offset behind (line.scan mode).2 ((line.followedBy offset behind).scan mode).2 := by
  rcases line with ⟨cells, stop⟩
  induction cells with
  | nil => contradiction
  | cons cell cells induction =>
      match cell with
      | ⟨start, none⟩ => contradiction
      | ⟨start, some char⟩ =>
          have readRest : AllRead cells := read.of_suffix (List.suffix_cons _ _)
          have skipped := induction readRest
          have noName : isNamePart '\n' = false := by decide
          have taken := run_followedBy offset behind noName ⟨cells, stop⟩
          have left := skipRun_followedBy offset behind noName ⟨cells, stop⟩
          have number := scanNumber_followedBy offset behind start char
            (show AllRead (Cursor.mk cells stop).cells from readRest)
          simp only [scan, followedBy, List.cons_append, scanCells]
            at going skipped taken left number ⊢
          cases charClass : CharClass.of char with
          | symbol token => exact ⟨rfl, .newline ⟨cells, stop⟩⟩
          | name =>
              simp only [taken, left]
              exact ⟨rfl, .newline _⟩
          | digit => exact number
          | blank =>
              simp only [charClass] at going
              exact skipped going
          | other =>
              simp only [charClass] at going
              cases mode with
              | permissive => exact skipped going
              | strict => exact ⟨rfl, .newline ⟨cells, stop⟩⟩

theorem drain_ne_nil (cursor : Cursor) : (cursor.drain mode).1 ≠ [] := by
  rcases exists_end_of_drain mode cursor with ⟨front, final, equal, _⟩
  simp [equal]

/-- The items of a line, without its end, come before the items behind it. -/
theorem drain_of_precedes {line whole : Cursor} (read : AllRead line.cells)
    (precedes : Precedes offset behind line whole) :
    ∃ front, (whole.drain mode).1 = front ++ (behind.drain mode).1 ∧
      front.map Relocation.erase.item =
        (line.drain mode).1.dropLast.map Relocation.erase.item := by
  -- The whole is general because giving up the last line takes the newline along: from
  -- there on nothing of the line is left, and the whole is already what stands behind it.
  induction line using scan_induction mode generalizing whole with
  | ended line atEnd =>
      have same : whole.scan mode = behind.scan mode := by
        cases precedes with
        | newline => exact scan_followedBy_of_isEnd offset behind read atEnd
        | gone stop => rfl
      refine ⟨[], ?_, ?_⟩
      · rw [drain_congr same, List.nil_append]
      · rw [drain_of_isEnd atEnd]
        rfl
  | unfinished line going induction =>
      cases precedes with
      | gone stop => contradiction
      | newline =>
          rcases scan_followedBy offset behind read going with ⟨sameItem, precedesRest⟩
          have readRest := read.of_suffix (scanCells_suffix mode line.stop line.cells)
          rcases induction readRest precedesRest with ⟨front, items, sameFront⟩
          have wholeGoing : ((line.followedBy offset behind).scan mode).1.isEnd = false := by
            rw [← Relocation.isEnd_item .erase, sameItem, Relocation.isEnd_item, going]
          refine ⟨((line.followedBy offset behind).scan mode).1 :: front, ?_, ?_⟩
          · rw [drain_of_unfinished wholeGoing, items, List.cons_append]
          · rw [drain_of_unfinished going, List.dropLast_cons_of_ne_nil (drain_ne_nil _),
              List.map_cons, List.map_cons, sameItem, sameFront]

end Following

/-! ## Texts -/

theorem allRead_ofText (text : String) : AllRead (ofText text).cells := by
  intro cell member
  rw [ofText_eq] at member
  rcases List.mem_map.mp member with ⟨pair, _, rfl⟩
  exact Option.some_ne_none pair.2

theorem offsetsFrom_append_newline (first second : String) :
    offsetsFrom 0 (first ++ "\n" ++ second).toList =
      offsetsFrom 0 first.toList ++ (first.utf8ByteSize, '\n') ::
        (offsetsFrom 0 second.toList).map fun pair =>
          (pair.1 + (first.utf8ByteSize + 1), pair.2) := by
  have newline : "\n".toList = ['\n'] := rfl
  have size : ('\n').utf8Size = 1 := rfl
  rw [String.toList_append, String.toList_append, newline, List.append_assoc,
    offsetsFrom_append, String.ofList_toList, List.singleton_append, offsetsFrom, size,
    ← offsetsFrom_add, Nat.zero_add, Nat.zero_add]

/-- The end stands behind the last character, so it only moves along if there is one. -/
theorem ofText_append_newline (first : String) {second : String} (inhabited : second ≠ "") :
    ofText (first ++ "\n" ++ second) =
      (ofText first).followedBy first.utf8ByteSize
        ((ofText second).shifted (first.utf8ByteSize + 1)) := by
  rw [ofText_eq, offsetsFrom_append_newline, ofText_eq first, ofText_eq second]
  cases pairs : (offsetsFrom 0 second.toList).getLast? with
  | none =>
      have chars := char_offsetsFrom 0 second.toList
      rw [List.getLast?_eq_none_iff.mp pairs, List.map_nil] at chars
      exact absurd (String.toList_eq_nil_iff.mp chars.symm) inhabited
  | some last =>
      simp [followedBy, shifted, ofPair, List.getLast?_append, List.getLast?_cons, pairs,
        Function.comp_def]
      omega

theorem ofText_append_newline_empty (first : String) :
    ofText (first ++ "\n" ++ "") =
      (ofText first).followedBy first.utf8ByteSize ⟨[], first.utf8ByteSize + 1⟩ := by
  rw [ofText_eq, offsetsFrom_append_newline, ofText_eq first]
  simp [followedBy, ofPair, offsetsFrom]

end Cursor

theorem lex_empty (mode : Mode) : lex mode "" = [.ofToken .eof 1 1] := by
  rw [lex, Cursor.drain_of_isEnd rfl]
  rfl

/-- The items of a text are those before a newline, without their end, and those behind it,
as far along as they stand. An end alone is no farther than the text is long. -/
theorem lex_append_newline (mode : Mode) (first second : String) :
    ∃ front back, lex mode (first ++ "\n" ++ second) = front ++ back ∧
      front.map Relocation.erase.item =
        (lex mode first).dropLast.map Relocation.erase.item ∧
      (back = (lex mode second).map (Relocation.shift (first.utf8ByteSize + 1)).item ∨
        second = "" ∧ ∃ span, back = [.read ⟨.eof, span⟩]) := by
  have read := Cursor.allRead_ofText first
  by_cases empty : second = ""
  · subst empty
    rcases Cursor.drain_of_precedes _ _ read (.newline _) with ⟨front, items, sameFront⟩
    rw [← Cursor.ofText_append_newline_empty] at items
    refine ⟨front, _, items, sameFront, .inr ⟨rfl, .point (first.utf8ByteSize + 1), ?_⟩⟩
    rw [Cursor.drain_of_isEnd rfl]
    rfl
  · rcases Cursor.drain_of_precedes _ _ read (.newline _) with ⟨front, items, sameFront⟩
    rw [← Cursor.ofText_append_newline first empty] at items
    refine ⟨front, _, items, sameFront, .inl ?_⟩
    rw [Cursor.drain_shifted]
    rfl

end Abacus
