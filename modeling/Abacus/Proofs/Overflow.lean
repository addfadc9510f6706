import Abacus.Proofs.Lookahead

/-! # Lexers with offsets that overflow

The characters decide what a lexer in 32 bits reads, and the offsets never do. So it reads what the
lexer with unbounded offsets reads, at the same places up to 32 bits, whatever the offsets are that
its characters stand at. Where an overflow halts, it reads the same as long as every sum fits. -/

namespace Abacus

/-- Offsets cut off to 32 bits. -/
def Relocation.narrow : Relocation where
  move span := ⟨(UInt32.ofNat span.start).toNat, (UInt32.ofNat span.stop).toNat⟩
  move_spanning _ _ := rfl

theorem Overflow.allows_of_behind {overflow : Overflow} {cursor behind : Cursor}
    (narrow : cursor.Narrow) (suffix : behind.cells <:+ cursor.cells)
    (stops : behind.stop = cursor.stop ∨ behind = ⟨[], cursor.stop + 1⟩)
    (allowed : overflow.Allows behind) : overflow.Allows cursor := by
  rcases Cursor.exists_advanceBy suffix stops with ⟨count, rfl⟩
  exact allows_of_advanceBy narrow allowed

theorem Cursor.nextOffset_lt {cursor : Cursor} (narrow : cursor.Narrow)
    (room : cursor.stop + 1 < UInt32.size) : cursor.nextOffset < UInt32.size := by
  rcases cursor with ⟨cells, stop⟩
  match cells with
  | [] => exact room
  | [_] => exact Nat.lt_of_succ_lt room
  | _ :: cell :: _ => exact narrow cell (by simp)

/-! ## One item -/

namespace Lookahead

/-- A value, and what is ahead tracks a cursor, as far as that is allowed. -/
def Gives (overflow : Overflow) (value : α) (cursor : Cursor)
    (result : Option (α × Lookahead)) : Prop :=
  Follows overflow cursor (Returns value (·.Tracks cursor)) result

variable {overflow : Overflow} {ahead : Lookahead} {char : Char} {property : Char → Bool}

theorem takeRun_of_none (current : ahead.char = none) :
    takeRun overflow property ahead = some ([], ahead) := by
  rw [takeRun]
  split
  · rfl
  · next other => simp [current] at other

theorem takeRun_of_char (current : ahead.char = some char) :
    takeRun overflow property ahead =
      if property char then
        (ahead.advance overflow).bind fun next =>
          (takeRun overflow property next).map fun (chars, behind) => (char :: chars, behind)
      else some ([], ahead) := by
  rw [takeRun]
  split
  · next other => simp [current] at other
  · next found equal =>
      cases current.symm.trans equal
      congr 1
      split
      · next halted => rw [halted, Option.bind_none]
      · next pulled => rw [pulled, Option.bind_some]

theorem skipLine_eq :
    skipLine overflow ahead = (ahead.advance overflow).bind fun next =>
      match ahead.char with
      | none => some (ahead.position, next)
      | some char =>
          if char = '\n' then some (ahead.position, next) else skipLine overflow next := by
  rw [skipLine]
  split
  · next halted => rw [halted, Option.bind_none]
  · next pulled =>
      rw [pulled, Option.bind_some]
      split
      · next none => rw [none]
      · next some => rw [some]

theorem nextItem_of_none {mode : Mode} (current : ahead.char = none) :
    nextItem overflow mode ahead =
      some (.ofToken .eof ahead.position.toNat ahead.position.toNat, ahead) := by
  rw [nextItem]
  split
  · rfl
  · next other => simp [current] at other

theorem nextItem_of_char {mode : Mode} (current : ahead.char = some char) :
    nextItem overflow mode ahead =
      match CharClass.of char with
      | .symbol token => single overflow token ahead
      | .name => word overflow isNamePart .ident ahead
      | .digit => number overflow ahead
      | .blank => (ahead.advance overflow).bind (nextItem overflow mode)
      | .other => (ahead.advance overflow).bind fun next =>
          if mode = .permissive then nextItem overflow mode next
          else some (.ofCause (.unrecognized char) ahead.position.toNat next.position.toNat,
            next) := by
  rw [nextItem]
  split
  · next other => simp [current] at other
  · next found equal =>
      cases current.symm.trans equal
      cases CharClass.of char with
      | symbol token => rfl
      | name => rfl
      | digit => rfl
      | blank =>
          simp only
          split
          · next halted => rw [halted, Option.bind_none]
          · next pulled => rw [pulled, Option.bind_some]
      | other =>
          simp only
          split
          · next halted => rw [halted, Option.bind_none]
          · next pulled =>
              rw [pulled, Option.bind_some]
              cases mode <;> rfl

variable {cells rest : List Cell} {offset stop : Nat} {cursor : Cursor}

theorem gives_takeRun (property : Char → Bool) (tracks : ahead.Tracks ⟨cells, stop⟩)
    (allowed : overflow.Allows ⟨cells, stop⟩) :
    Gives overflow ((cells.takeWhile (·.satisfies property)).filterMap (·.char))
      (Cursor.skipRun property ⟨cells, stop⟩) (takeRun overflow property ahead) := by
  induction cells generalizing ahead with
  | nil =>
      rw [takeRun_of_none tracks.char]
      exact .reached allowed ⟨rfl, tracks⟩
  | cons cell rest induction =>
      match cell with
      | ⟨offset, none⟩ =>
          rw [takeRun_of_none tracks.char]
          exact .reached allowed ⟨rfl, tracks⟩
      | ⟨offset, some char⟩ =>
          have satisfies : (⟨offset, some char⟩ : Cell).satisfies property = property char := rfl
          rw [takeRun_of_char tracks.char, Cursor.skipRun, List.takeWhile_cons,
            List.dropWhile_cons, satisfies]
          split
          · have narrow := Cursor.narrow_advance tracks.narrow
            apply (follows_advance tracks allowed).bind
            · exact Overflow.allows_of_behind narrow (List.dropWhile_suffix _) (.inl rfl)
            · intro next nextTracks nextAllowed
              apply (induction nextTracks nextAllowed).map
              rintro ⟨chars, behind⟩ ⟨rfl, reached⟩
              exact ⟨rfl, reached⟩
          · exact .reached allowed ⟨rfl, tracks⟩

/-- The offset of the current character, and one pull. -/
theorem gives_position (tracks : ahead.Tracks cursor) (allowed : overflow.Allows cursor) :
    Gives overflow (UInt32.ofNat cursor.offset) cursor.advance
      ((ahead.advance overflow).bind fun next => some (ahead.position, next)) := by
  apply (follows_advance tracks allowed).bind id
  intro next nextTracks nextAllowed
  exact .reached nextAllowed ⟨tracks.position, nextTracks⟩

theorem gives_skipLine (tracks : ahead.Tracks ⟨cells, stop⟩)
    (allowed : overflow.Allows ⟨cells, stop⟩) :
    Gives overflow (UInt32.ofNat (Cursor.skipLine stop cells).1) (Cursor.skipLine stop cells).2
      (skipLine overflow ahead) := by
  induction cells generalizing ahead with
  | nil =>
      rw [skipLine_eq, tracks.char]
      exact gives_position tracks allowed
  | cons cell rest induction =>
      have narrow := Cursor.narrow_advance tracks.narrow
      match cell with
      | ⟨offset, none⟩ =>
          rw [skipLine_eq, tracks.char]
          exact gives_position tracks allowed
      | ⟨offset, some char⟩ =>
          rw [skipLine_eq, tracks.char, Cursor.skipLine]
          simp only [List.getElem?_cons_zero, Option.bind_some]
          split
          · exact gives_position tracks allowed
          · apply (follows_advance tracks allowed).bind
            · exact Overflow.allows_of_behind narrow (Cursor.skipLine_suffix stop rest)
                (Cursor.stop_skipLine stop rest)
            · intro next nextTracks nextAllowed
              exact induction nextTracks nextAllowed

theorem gives_single (tracks : ahead.Tracks cursor) (allowed : overflow.Allows cursor)
    (token : Token) :
    Gives overflow (Relocation.narrow.item (.ofToken token cursor.offset cursor.advance.offset))
      cursor.advance (single overflow token ahead) := by
  apply (follows_advance tracks allowed).map
  intro behind reached
  refine ⟨?_, reached⟩
  rw [tracks.position, reached.position]
  rfl

theorem gives_word (tracks : ahead.Tracks ⟨⟨offset, some char⟩ :: rest, stop⟩)
    (allowed : overflow.Allows ⟨⟨offset, some char⟩ :: rest, stop⟩)
    (first : property char = true) (form : String → Token) :
    Gives overflow
      (Relocation.narrow.item (.ofToken (form (char.toString ++ Cursor.run property ⟨rest, stop⟩))
        offset (Cursor.skipRun property ⟨rest, stop⟩).offset))
      (Cursor.skipRun property ⟨rest, stop⟩) (word overflow property form ahead) := by
  have satisfies : (⟨offset, some char⟩ : Cell).satisfies property = true := first
  have run := gives_takeRun property tracks allowed
  rw [Cursor.skipRun, List.takeWhile_cons, List.dropWhile_cons, satisfies, if_pos rfl,
    if_pos rfl] at run
  apply run.map
  rintro ⟨chars, behind⟩ ⟨rfl, reached⟩
  refine ⟨?_, reached⟩
  have text : String.ofList (char :: (rest.takeWhile (·.satisfies property)).filterMap (·.char)) =
      char.toString ++ Cursor.run property ⟨rest, stop⟩ := String.ofList_cons
  have stopAt : behind.position =
      UInt32.ofNat (Cursor.skipRun property ⟨rest, stop⟩).offset := reached.position
  rw [← text, tracks.position]
  simp only [stopAt]
  rfl

theorem gives_number (tracks : ahead.Tracks ⟨⟨offset, some char⟩ :: rest, stop⟩)
    (allowed : overflow.Allows ⟨⟨offset, some char⟩ :: rest, stop⟩)
    (digit : char.isDigit = true) :
    Gives overflow (Relocation.narrow.item (Cursor.scanNumber offset char ⟨rest, stop⟩).1)
      (Cursor.scanNumber offset char ⟨rest, stop⟩).2 (number overflow ahead) := by
  have current : ahead.char = some char := tracks.char
  have starts : ahead.nextChar.any Char.isDigit =
      Cursor.startsWith ⟨rest, stop⟩ Char.isDigit := by
    rw [tracks.nextChar]
    cases rest with
    | nil => rfl
    | cons cell rest => rfl
  rw [number, current, starts, Cursor.scanNumber]
  by_cases zero : char = '0'
  · subst zero
    rw [if_pos rfl, if_pos rfl]
    split
    · next going =>
        -- The zero itself is no newline, so that its line goes on behind it.
        have line := gives_skipLine tracks allowed
        rw [Cursor.skipLine, if_neg (by decide)] at line
        apply line.map
        rintro ⟨lineEnd, behind⟩ ⟨rfl, reached⟩
        refine ⟨?_, reached⟩
        rw [tracks.position]
        rfl
    · exact gives_single tracks allowed (.int "0")
  · rw [if_neg zero, if_neg (mt Option.some.inj zero)]
    exact gives_word tracks allowed digit .int

theorem gives_end (mode : Mode) (tracks : ahead.Tracks cursor) (allowed : overflow.Allows cursor)
    (current : ahead.char = none) :
    Gives overflow (Relocation.narrow.item (.ofToken .eof cursor.offset cursor.offset)) cursor
      (ahead.nextItem overflow mode) := by
  rw [nextItem_of_none current]
  refine .reached allowed ⟨?_, tracks⟩
  rw [tracks.position]
  rfl

theorem gives_nextItem (mode : Mode) (tracks : ahead.Tracks ⟨cells, stop⟩)
    (allowed : overflow.Allows ⟨cells, stop⟩) :
    Gives overflow (Relocation.narrow.item (Cursor.scanCells mode stop cells).1)
      (Cursor.scanCells mode stop cells).2 (ahead.nextItem overflow mode) := by
  induction cells generalizing ahead with
  | nil => exact gives_end mode tracks allowed tracks.char
  | cons cell rest induction =>
      have narrow := Cursor.narrow_advance tracks.narrow
      have passed : Gives overflow (Relocation.narrow.item (Cursor.scanCells mode stop rest).1)
          (Cursor.scanCells mode stop rest).2
          ((ahead.advance overflow).bind (nextItem overflow mode)) := by
        apply (follows_advance tracks allowed).bind
        · exact Overflow.allows_of_behind narrow (Cursor.scanCells_suffix mode stop rest)
            ((Cursor.stop_scanCells mode stop rest).imp_right And.right)
        · intro next nextTracks nextAllowed
          exact induction nextTracks nextAllowed
      match cell with
      | ⟨offset, none⟩ => exact gives_end mode tracks allowed tracks.char
      | ⟨offset, some char⟩ =>
          rw [nextItem_of_char tracks.char]
          simp only [Cursor.scanCells]
          cases charClass : CharClass.of char with
          | symbol token => exact gives_single tracks allowed token
          | name =>
              have part := isNamePart_iff.mpr (.inl (CharClass.isNameStart_of charClass))
              exact gives_word tracks allowed part .ident
          | digit => exact gives_number tracks allowed (CharClass.isDigit_of charClass)
          | blank => exact passed
          | other =>
              cases mode with
              | permissive => exact passed
              | strict =>
                  apply (follows_advance tracks allowed).bind id
                  intro next nextTracks nextAllowed
                  refine .reached nextAllowed ⟨?_, nextTracks⟩
                  rw [tracks.position, nextTracks.position]
                  rfl

/-- What is ahead is known from the cursor that it tracks. -/
theorem Tracks.eq {first second : Lookahead} (firstTracks : first.Tracks cursor)
    (secondTracks : second.Tracks cursor) : first = second := by
  rcases first with ⟨position, nextPosition, char, nextChar, input⟩
  rcases second with ⟨otherPosition, otherNext, otherChar, otherNextChar, otherInput⟩
  cases firstTracks.position.trans secondTracks.position.symm
  cases firstTracks.nextPosition.trans secondTracks.nextPosition.symm
  cases firstTracks.char.trans secondTracks.char.symm
  cases firstTracks.nextChar.trans secondTracks.nextChar.symm
  have inputs := firstTracks.input.trans secondTracks.input.symm
  rw [List.map_map, List.map_map, List.map_inj_right] at inputs
  · cases inputs
    rfl
  · rintro ⟨offset, char⟩ ⟨otherOffset, otherChar⟩ same
    simp only [Function.comp_apply, widen, Cursor.ofPair, Cell.mk.injEq, UInt32.toNat_inj,
      Option.some.injEq] at same
    rw [same.1, same.2]

end Lookahead

/-! ## Item after item -/

namespace Scanner

/-- What an operation gives, and the lexer behind it. -/
def perform (overflow : Overflow) (scanner : Scanner) :
    Lexer.Operation → Option (Option Item × Scanner)
  | .next => scanner.next? overflow
  | .nextItem => (scanner.nextItem overflow).map fun (item, after) => (some item, after)
  | .setMode mode => some (none, scanner.setMode mode)

/-- The items that operations give one after the other, and the lexer behind them. -/
def performAll (overflow : Overflow) (scanner : Scanner) :
    List Lexer.Operation → Option (List Item × Scanner)
  | [] => some ([], scanner)
  | operation :: operations =>
      (scanner.perform overflow operation).bind fun (item, next) =>
        (next.performAll overflow operations).map fun (items, final) =>
          (item.toList ++ items, final)

def run (overflow : Overflow) (input : List (UInt32 × Char)) (operations : List Lexer.Operation) :
    Option (List Item × Scanner) :=
  (start overflow input).bind fun scanner => scanner.performAll overflow operations

/-- A lexer in 32 bits is where a lexer with unbounded offsets is. -/
structure Tracks (scanner : Scanner) (lexer : Lexer) : Prop where
  ahead : scanner.ahead.Tracks lexer.cursor
  mode : scanner.mode = lexer.mode
  finished : scanner.finished = lexer.finished

theorem Tracks.eq {first second : Scanner} {lexer : Lexer} (firstTracks : first.Tracks lexer)
    (secondTracks : second.Tracks lexer) : first = second := by
  rcases first with ⟨ahead, mode, finished⟩
  rcases second with ⟨otherAhead, otherMode, otherFinished⟩
  cases firstTracks.ahead.eq secondTracks.ahead
  cases firstTracks.mode.trans secondTracks.mode.symm
  cases firstTracks.finished.trans secondTracks.finished.symm
  rfl

variable {overflow : Overflow} {scanner : Scanner} {lexer : Lexer}

theorem follows_nextItem (tracks : scanner.Tracks lexer)
    (allowed : overflow.Allows lexer.cursor) :
    Follows overflow lexer.nextItem.2.cursor
      (Returns (Relocation.narrow.item lexer.nextItem.1) (·.Tracks lexer.nextItem.2))
      (scanner.nextItem overflow) := by
  have read := Lookahead.gives_nextItem lexer.mode tracks.ahead allowed
  rw [nextItem, tracks.mode]
  apply read.map
  rintro ⟨item, ahead⟩ ⟨rfl, reached⟩
  refine ⟨rfl, reached, rfl, ?_⟩
  simp only [tracks.finished, Relocation.isEnd_item]
  rfl

theorem follows_perform (tracks : scanner.Tracks lexer) (allowed : overflow.Allows lexer.cursor)
    (operation : Lexer.Operation) :
    Follows overflow (lexer.perform operation).2.cursor
      (Returns ((lexer.perform operation).1.map Relocation.narrow.item)
        (·.Tracks (lexer.perform operation).2))
      (scanner.perform overflow operation) := by
  have asked : Follows overflow lexer.nextItem.2.cursor
      (Returns (some (Relocation.narrow.item lexer.nextItem.1)) (·.Tracks lexer.nextItem.2))
      (scanner.perform overflow .nextItem) := by
    apply (follows_nextItem tracks allowed).map
    rintro ⟨item, after⟩ ⟨rfl, reached⟩
    exact ⟨rfl, reached⟩
  cases operation with
  | next =>
      rw [perform, next?, Lexer.perform, Lexer.next?, tracks.finished]
      split
      · exact .reached allowed ⟨rfl, tracks⟩
      · exact asked
  | nextItem => exact asked
  | setMode mode => exact .reached allowed ⟨rfl, tracks.ahead, rfl, tracks.finished⟩

theorem follows_performAll (tracks : scanner.Tracks lexer)
    (allowed : overflow.Allows lexer.cursor) (operations : List Lexer.Operation) :
    Follows overflow (lexer.after operations).cursor
      (Returns ((lexer.given operations).map Relocation.narrow.item)
        (·.Tracks (lexer.after operations)))
      (scanner.performAll overflow operations) := by
  induction operations generalizing scanner lexer with
  | nil => exact .reached allowed ⟨rfl, tracks⟩
  | cons operation operations induction =>
      rw [Lexer.after_cons]
      apply (follows_perform tracks allowed operation).bind
      · -- What comes later only pulls further, so that a lexer that was stopped stays so.
        intro further
        rcases Lexer.exists_advanceBy_of_perform lexer operation with ⟨count, equal, _⟩
        rcases Lexer.exists_advanceBy_of_after (lexer.perform operation).2 operations with
          ⟨more, final, _⟩
        rw [final] at further
        apply Overflow.allows_of_advanceBy _ further
        rw [equal]
        exact Cursor.narrow_advanceBy tracks.ahead.narrow count
      · rintro ⟨item, next⟩ ⟨rfl, nextTracks⟩ nextAllowed
        apply (induction nextTracks nextAllowed).map
        rintro ⟨items, final⟩ ⟨rfl, reached⟩
        refine ⟨?_, reached⟩
        rw [Lexer.given, List.map_append]
        cases (lexer.perform operation).1 <;> rfl

theorem follows_start (input : List (UInt32 × Char)) :
    Follows overflow (.ofPairs (input.map Lookahead.widen))
      (·.Tracks (Lexer.start (.ofPairs (input.map Lookahead.widen)))) (start overflow input) := by
  have tracks := Lookahead.tracks_unread input
  have allowed : overflow.Allows (Cursor.ofPairs (input.map Lookahead.widen)).unpulled :=
    .inr (show 0 < UInt32.size by decide)
  have pulled := Lookahead.follows_advanceBy tracks allowed 2
  rw [Cursor.advanceBy_unpulled] at pulled
  apply pulled.map
  intro ahead reached
  exact ⟨reached, rfl, rfl⟩

/-- A lexer in 32 bits gives what the lexer with unbounded offsets gives, with the offsets cut off.
Where an overflow halts, it does so up to where the next offset fits. -/
theorem follows_run (overflow : Overflow) (input : List (UInt32 × Char))
    (operations : List Lexer.Operation) :
    let lexer := Lexer.start (.ofPairs (input.map Lookahead.widen))
    Follows overflow (lexer.after operations).cursor
      (Returns ((lexer.given operations).map Relocation.narrow.item)
        (·.Tracks (lexer.after operations)))
      (run overflow input operations) := by
  intro lexer
  apply (follows_start input).bind
  · intro further
    rcases Lexer.exists_advanceBy_of_after lexer operations with ⟨count, final, _⟩
    rw [final] at further
    apply Overflow.allows_of_advanceBy _ further
    exact Cursor.narrow_advanceBy (Lookahead.tracks_unread input).narrow 2
  · intro scanner tracks allowed
    exact follows_performAll tracks allowed operations

/-! ## Sums that wrap -/

theorem exists_perform (tracks : scanner.Tracks lexer) (operation : Lexer.Operation) :
    ∃ given next, scanner.perform .wraps operation = some (given, next) ∧
      ∃ count ≤ lexer.cursor.cells.length + 1,
        scanner.ahead.advanceBy .wraps count = some next.ahead := by
  rcases (follows_perform tracks (.inl rfl) operation).exists_some (.inl rfl) with
    ⟨next, performed, nextTracks⟩
  rcases Lexer.exists_advanceBy_of_perform lexer operation with ⟨count, equal, bound⟩
  rcases (Lookahead.follows_advanceBy tracks.ahead (.inl rfl) count).exists_of_allows (.inl rfl)
    with ⟨ahead, pulled, reached⟩
  refine ⟨_, next, performed, count, by omega, ?_⟩
  rw [pulled, reached.eq (equal ▸ nextTracks.ahead)]

/-- Where an item leads back to the same lexer, it does so in 32 bits. -/
theorem nextItem_eq (tracks : scanner.Tracks lexer) {item : Item}
    (same : lexer.nextItem = (item, lexer)) :
    scanner.nextItem .wraps = some (Relocation.narrow.item item, scanner) := by
  rcases (follows_nextItem tracks (.inl rfl)).exists_some (.inl rfl) with
    ⟨next, read, nextTracks⟩
  rw [same] at read nextTracks
  rw [read, nextTracks.eq tracks]

theorem finished_iff {begun : Lexer} (unfinished : begun.finished = false)
    {operations : List Lexer.Operation} (tracks : scanner.Tracks (begun.after operations)) :
    scanner.finished = true ↔
      ∃ item ∈ (begun.given operations).map Relocation.narrow.item, item.isEnd = true := by
  rw [tracks.finished, Lexer.finished_after_iff, unfinished]
  constructor
  · rintro (contra | ⟨item, given, isEnd⟩)
    · contradiction
    · exact ⟨_, List.mem_map_of_mem given, (Relocation.narrow.isEnd_item item).trans isEnd⟩
  · rintro ⟨_, member, isEnd⟩
    rcases List.mem_map.mp member with ⟨item, given, rfl⟩
    exact .inr ⟨item, given, (Relocation.narrow.isEnd_item item).symm.trans isEnd⟩

theorem exists_finished {begun : Lexer} (settled : begun.Settled)
    {operations : List Lexer.Operation} (tracks : scanner.Tracks (begun.after operations))
    {item : Item} (member : item ∈ (begun.given operations).map Relocation.narrow.item)
    (isEnd : item.isEnd = true) (further : List Lexer.Operation) :
    ∃ more later, scanner.performAll .wraps further = some (more, later) ∧
      later.finished = true ∧ later.perform .wraps .next = some (none, later) ∧
      later.perform .wraps .nextItem = some (some item, later) := by
  rcases List.mem_map.mp member with ⟨exact, given, rfl⟩
  rw [Relocation.isEnd_item] at isEnd
  have settledBehind : (begun.after operations).Settled :=
    Lexer.after_induction Lexer.settled_perform settled operations
  have finished : (begun.after operations).finished = true :=
    (Lexer.finished_after_iff begun operations).mpr (.inr ⟨exact, given, isEnd⟩)
  rcases (follows_performAll tracks (.inl rfl) further).exists_some (.inl rfl) with
    ⟨later, performed, laterTracks⟩
  rcases Lexer.exists_setMode_of_finished settledBehind finished further with ⟨mode, equal⟩
  have laterFinished : later.finished = true := by
    rw [laterTracks.finished, equal]
    exact finished
  refine ⟨_, later, performed, laterFinished, ?_, ?_⟩
  · rw [perform, next?, if_pos laterFinished]
  · have again : ((begun.after operations).setMode mode).nextItem =
        (exact, (begun.after operations).setMode mode) := by
      rw [Lexer.eq_of_mem_given settled given isEnd]
      exact Lexer.nextItem_of_finished settledBehind finished
    rw [equal] at laterTracks
    rw [perform, nextItem_eq laterTracks again]
    rfl

theorem exists_rest (tracks : scanner.Tracks lexer) (unfinished : scanner.finished = false) :
    ∃ front final,
      (∀ count, ∃ later, scanner.performAll .wraps (List.replicate count .next) =
        some ((front ++ [final]).take count, later)) ∧
      final.isEnd = true ∧ (∀ item ∈ front, item.isEnd = false) ∧
      front.length ≤ lexer.cursor.cells.length := by
  rcases Cursor.exists_front_of_drain lexer.mode lexer.cursor with
    ⟨front, final, items, isEnd, notEnd, short⟩
  refine ⟨front.map Relocation.narrow.item, Relocation.narrow.item final, ?_, ?_, ?_, ?_⟩
  · intro count
    rcases (follows_performAll tracks (.inl rfl) (List.replicate count .next)).exists_some
      (.inl rfl) with ⟨later, performed, _⟩
    refine ⟨later, ?_⟩
    rw [performed, Lexer.given_next_of_not_finished (tracks.finished ▸ unfinished), items,
      List.map_take, List.map_append]
    rfl
  · rw [Relocation.isEnd_item, isEnd]
  · simpa using notEnd
  · rwa [List.length_map]

/-! ## Sums that halt -/

theorem run_halts (input : List (UInt32 × Char)) (operations : List Lexer.Operation) :
    run .halts input operations =
      if ((Lexer.start (.ofPairs (input.map Lookahead.widen))).after operations).cursor.nextOffset <
        UInt32.size then run .wraps input operations else none := by
  rcases (follows_run .wraps input operations).exists_some (.inl rfl) with
    ⟨scanner, ran, tracks⟩
  have follows := follows_run .halts input operations
  split
  · next fits =>
      rcases follows.exists_some (.inr fits) with ⟨other, halted, otherTracks⟩
      rw [halted, ran, otherTracks.eq tracks]
  · next misfit =>
      apply follows.eq_none
      rintro (wraps | fits)
      · contradiction
      · exact misfit fits

/-- A lexer makes three sums at most, the third only where it gives up the last line. -/
theorem nextOffset_after_lt {input : List (UInt32 × Char)}
    (room : ∀ pair ∈ input.getLast?, pair.1.toNat + 3 < UInt32.size)
    (operations : List Lexer.Operation) :
    ((Lexer.start (.ofPairs (input.map Lookahead.widen))).after operations).cursor.nextOffset <
      UInt32.size := by
  rcases Lexer.exists_advanceBy_of_after
    (Lexer.start (.ofPairs (input.map Lookahead.widen))) operations with ⟨count, equal, bound⟩
  have begun : (Lexer.start (.ofPairs (input.map Lookahead.widen))).cursor = _ :=
    Cursor.after_pairs 0 _
  rw [equal]
  apply Cursor.nextOffset_lt
  · exact Cursor.narrow_advanceBy
      (Cursor.narrow_advanceBy (Lookahead.tracks_unread input).narrow 2) count
  · rw [begun] at bound ⊢
    rw [Cursor.advanceBy_eq]
    simp only [List.length_map, List.getLast?_map, ne_eq, List.map_eq_nil_iff] at bound ⊢
    cases last : input.getLast? with
    | none =>
        rw [List.getLast?_eq_none_iff] at last
        subst last
        have none : count = 0 := by simpa using bound
        subst none
        decide
    | some pair =>
        have far := room pair last
        simp only [Option.map_some, Option.getD_some, Lookahead.widen]
        omega

end Scanner

/-- Whatever offsets the characters of a lexer stand at and however it is asked, where its sums wrap
every operation gives an answer, after no more pulls than there are characters and one more. The
lexer is finished as soon as it has given the end of the source, and not before. It stays so, gives
nothing to those who ask for what is left, and gives the same end to all others. Asked for one item
after the other it gives at most one for each character, and then the end.

Where an overflow halts, the lexer does the same as long as the next offset fits, and else it gives
no answer. It always fits if 32 bits can count three more than the last offset. -/
theorem lexer_finishes_once (pairs : List (UInt32 × Char)) (operations : List Lexer.Operation) :
    (∃ items scanner, Scanner.run .wraps pairs operations = some (items, scanner) ∧
      (∀ operation, ∃ given next, scanner.perform .wraps operation = some (given, next) ∧
        ∃ count ≤ pairs.length + 1, scanner.ahead.advanceBy .wraps count = some next.ahead) ∧
      (scanner.finished = true ↔ ∃ item ∈ items, item.isEnd = true) ∧
      (∀ item ∈ items, item.isEnd = true → ∀ further, ∃ more later,
        scanner.performAll .wraps further = some (more, later) ∧ later.finished = true ∧
        later.perform .wraps .next = some (none, later) ∧
        later.perform .wraps .nextItem = some (some item, later)) ∧
      (scanner.finished = false → ∃ front final,
        (∀ count, ∃ later, scanner.performAll .wraps (List.replicate count .next) =
          some ((front ++ [final]).take count, later)) ∧
        final.isEnd = true ∧ (∀ item ∈ front, item.isEnd = false) ∧
        (items.filter (!·.isEnd)).length + front.length ≤ pairs.length)) ∧
    (Scanner.run .halts pairs operations =
      if ((Lexer.start (.ofPairs (pairs.map Lookahead.widen))).after operations).cursor.nextOffset <
        UInt32.size then Scanner.run .wraps pairs operations else none) ∧
    ((∀ pair ∈ pairs.getLast?, pair.1.toNat + 3 < UInt32.size) →
      Scanner.run .halts pairs operations = Scanner.run .wraps pairs operations) := by
  let begun := Lexer.start (.ofPairs (pairs.map Lookahead.widen))
  have used := Lexer.length_given_add_le begun operations
  have cells : begun.cursor.cells.length = pairs.length := by
    rw [← List.length_map Lookahead.widen]
    exact (Cursor.length_cells_after 0 _).trans (List.length_map _)
  rcases (Scanner.follows_run .wraps pairs operations).exists_some (.inl rfl) with
    ⟨scanner, ran, tracks⟩
  change scanner.Tracks (begun.after operations) at tracks
  refine ⟨⟨_, scanner, ran, ?_, ?_, ?_, ?_⟩, Scanner.run_halts pairs operations, ?_⟩
  · intro operation
    rcases Scanner.exists_perform tracks operation with
      ⟨item, next, performed, count, bound, pulled⟩
    exact ⟨item, next, performed, count, by omega, pulled⟩
  · exact Scanner.finished_iff rfl tracks
  · intro item member isEnd further
    exact Scanner.exists_finished (Lexer.settled_start _) tracks member isEnd further
  · intro unfinished
    rcases Scanner.exists_rest tracks unfinished with ⟨front, final, items, isEnd, notEnd, short⟩
    refine ⟨front, final, items, isEnd, notEnd, ?_⟩
    have kept : (((begun.given operations).map Relocation.narrow.item).filter (!·.isEnd)).length =
        ((begun.given operations).filter (!·.isEnd)).length := by
      simp [List.filter_map, Function.comp_def]
    change (((begun.given operations).map Relocation.narrow.item).filter (!·.isEnd)).length +
      front.length ≤ pairs.length
    omega
  · intro room
    rw [Scanner.run_halts, if_pos (Scanner.nextOffset_after_lt room operations)]

/-- Characters at offsets of no text, with a numeral that makes the lexer give up, so that it pulls
past the end once more. The end behind the last offset does not fit. -/
def scattered : List (UInt32 × Char) := [(3, '*'), (9, '0'), (10, '1'), (4294967294, '#')]

/-- The three items of `scattered`, with a change of the mode between them. -/
def askedForAll : List Lexer.Operation := [.next, .setMode .strict, .nextItem, .next]

theorem lexer_finishes_once_scattered :
    (∃ scanner, Scanner.run .wraps scattered askedForAll =
        some ([.ofToken .star 3 9, .ofCause .leadingZero 9 4294967295, .ofToken .eof 0 0],
          scanner) ∧
      scanner.finished = true ∧
      ∃ more later, scanner.performAll .wraps [.nextItem, .setMode .permissive, .next] =
          some (more, later) ∧
        later.perform .wraps .next = some (none, later) ∧
        later.perform .wraps .nextItem = some (some (.ofToken .eof 0 0), later)) ∧
    Scanner.run .halts scattered askedForAll = none ∧
    (Scanner.run .halts scattered [.next]).isSome = true ∧
    Scanner.run .halts (scattered.take 3) askedForAll =
      Scanner.run .wraps (scattered.take 3) askedForAll := by
  rcases lexer_finishes_once scattered askedForAll with
    ⟨⟨items, scanner, ran, _, finished, ended, _⟩, _⟩
  have given : (Scanner.run .wraps scattered askedForAll).map (·.1) =
      some [.ofToken .star 3 9, .ofCause .leadingZero 9 4294967295, .ofToken .eof 0 0] := by
    decide +kernel
  rw [ran] at given
  cases Option.some.inj given
  rcases ended (.ofToken .eof 0 0) (by simp) rfl [.nextItem, .setMode .permissive, .next] with
    ⟨more, later, performed, _, next, nextItem⟩
  refine ⟨⟨scanner, ran, finished.mpr ⟨.ofToken .eof 0 0, by simp, rfl⟩, more, later, performed,
    next, nextItem⟩, by decide +kernel, by decide +kernel, ?_⟩
  apply (lexer_finishes_once (scattered.take 3) askedForAll).2.2
  decide

end Abacus
