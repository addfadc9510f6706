import Abacus.Proofs.Documents

/-! # Lexers at the end of their source

A lexer can be asked for items in two ways, and its mode can be set at any time. Whatever it is
asked to do takes finitely many pulls from its source. Once it has given the end of the source it
is finished and stays so: it gives the same end again, or nothing at all. -/

namespace Abacus

/-! ## Pulls -/

namespace Cursor

/-- The cursor behind one pull. Behind the end there is another end, one further on. -/
def advance : Cursor → Cursor
  | ⟨[], stop⟩ => ⟨[], stop + 1⟩
  | ⟨_ :: rest, stop⟩ => ⟨rest, stop⟩

theorem cells_advance (cursor : Cursor) : cursor.advance.cells = cursor.cells.tail := by
  rcases cursor with ⟨cells, stop⟩
  cases cells <;> rfl

theorem offset_advance (cursor : Cursor) : cursor.advance.offset = cursor.nextOffset := by
  rcases cursor with ⟨cells, stop⟩
  match cells with
  | [] => rfl
  | [_] => rfl
  | _ :: _ :: _ => rfl

def advanceBy : Nat → Cursor → Cursor
  | 0, cursor => cursor
  | count + 1, cursor => advanceBy count cursor.advance

theorem advanceBy_eq (count : Nat) (cursor : Cursor) :
    cursor.advanceBy count =
      ⟨cursor.cells.drop count, cursor.stop + (count - cursor.cells.length)⟩ := by
  induction count generalizing cursor with
  | zero => simp [advanceBy]
  | succ count induction =>
      rw [advanceBy, induction]
      rcases cursor with ⟨cells, stop⟩
      cases cells with
      | nil =>
          simp only [advance, List.drop_nil, List.length_nil, mk.injEq, true_and]
          omega
      | cons cell rest =>
          simp only [advance, List.drop_succ_cons, List.length_cons, Nat.add_sub_add_right]

theorem advanceBy_add (cursor : Cursor) (first second : Nat) :
    cursor.advanceBy (first + second) = (cursor.advanceBy first).advanceBy second := by
  rw [advanceBy_eq, advanceBy_eq second, advanceBy_eq first]
  simp only [List.drop_drop, List.length_drop, mk.injEq, true_and]
  omega

theorem advanceBy_succ (cursor : Cursor) (count : Nat) :
    cursor.advanceBy (count + 1) = (cursor.advanceBy count).advance :=
  advanceBy_add cursor count 1

/-- From a cursor after some pulls it can be told how many there were. -/
theorem advanceBy_inj {cursor : Cursor} {first second : Nat} :
    cursor.advanceBy first = cursor.advanceBy second ↔ first = second := by
  constructor
  · intro equal
    rw [advanceBy_eq, advanceBy_eq, mk.injEq] at equal
    have left := congrArg List.length equal.1
    rw [List.length_drop, List.length_drop] at left
    omega
  · rintro rfl
    rfl

theorem stop_skipLine (stop : Nat) (cells : List Cell) :
    (skipLine stop cells).2.stop = stop ∨ (skipLine stop cells).2 = ⟨[], stop + 1⟩ := by
  induction cells with
  | nil => exact .inr rfl
  | cons cell rest induction =>
      match cell with
      | ⟨offset, none⟩ => exact .inl rfl
      | ⟨offset, some char⟩ =>
          simp only [skipLine]
          split
          · exact .inl rfl
          · exact induction

theorem stop_scanNumber (start : Nat) (first : Char) (rest : Cursor) :
    (scanNumber start first rest).2.stop = rest.stop ∨
      (scanNumber start first rest).2 = ⟨[], rest.stop + 1⟩ := by
  unfold scanNumber
  split
  · split
    · exact stop_skipLine rest.stop rest.cells
    · exact .inl rfl
  · exact .inl rfl

/-- The end only moves on where a line is given up that has no newline. -/
theorem stop_scanCells (mode : Mode) (stop : Nat) (cells : List Cell) :
    (scanCells mode stop cells).2.stop = stop ∨
      cells ≠ [] ∧ (scanCells mode stop cells).2 = ⟨[], stop + 1⟩ := by
  induction cells with
  | nil => exact .inl rfl
  | cons cell rest induction =>
      match cell with
      | ⟨start, none⟩ => exact .inl rfl
      | ⟨start, some char⟩ =>
          have skipped := induction.imp_right fun moved => moved.2
          simp only [ne_eq, reduceCtorEq, not_false_eq_true, true_and, scanCells]
          cases CharClass.of char with
          | symbol token => exact .inl rfl
          | name => exact .inl rfl
          | digit => exact stop_scanNumber start char ⟨rest, stop⟩
          | blank => exact skipped
          | other =>
              cases mode with
              | permissive => exact skipped
              | strict => exact .inl rfl

theorem eq_advanceBy_of_suffix {cursor behind : Cursor} (suffix : behind.cells <:+ cursor.cells)
    (same : behind.stop = cursor.stop) :
    behind = cursor.advanceBy (cursor.cells.length - behind.cells.length) := by
  have drop := List.suffix_iff_eq_drop.mp suffix
  rw [advanceBy_eq, ← drop, Nat.sub_eq_zero_of_le (Nat.sub_le _ _), Nat.add_zero, ← same]

theorem advanceBy_length_succ (cursor : Cursor) :
    cursor.advanceBy (cursor.cells.length + 1) = ⟨[], cursor.stop + 1⟩ := by
  rw [advanceBy_eq, List.drop_of_length_le (Nat.le_succ _), Nat.add_sub_cancel_left]

/-- What is left of a cursor is reached by pulls, also if the end has moved on. -/
theorem exists_advanceBy {cursor behind : Cursor} (suffix : behind.cells <:+ cursor.cells)
    (stops : behind.stop = cursor.stop ∨ behind = ⟨[], cursor.stop + 1⟩) :
    ∃ count, behind = cursor.advanceBy count := by
  rcases stops with same | rfl
  · exact ⟨_, eq_advanceBy_of_suffix suffix same⟩
  · exact ⟨_, cursor.advanceBy_length_succ.symm⟩

/-- An item takes no more pulls than there are cells, or one more at the end of a source that is
not empty. -/
theorem exists_advanceBy_of_scan (mode : Mode) (cursor : Cursor) :
    ∃ count, (cursor.scan mode).2 = cursor.advanceBy count ∧
      (count ≤ cursor.cells.length ∨ cursor.cells ≠ [] ∧ count = cursor.cells.length + 1) := by
  rcases stop_scanCells mode cursor.stop cursor.cells with same | ⟨inhabited, moved⟩
  · have suffix := scanCells_suffix mode cursor.stop cursor.cells
    exact ⟨_, eq_advanceBy_of_suffix suffix same, .inl (Nat.sub_le _ _)⟩
  · exact ⟨_, moved.trans cursor.advanceBy_length_succ.symm, .inr ⟨inhabited, rfl⟩⟩

/-! ## The end -/

/-- Where there is no current character, the end is given, and it is given again and again. -/
theorem scan_of_stopped {cursor : Cursor} (stopped : cursor.Stopped) (mode : Mode) :
    cursor.scan mode = (.ofToken .eof cursor.offset cursor.offset, cursor) := by
  rcases cursor with ⟨cells, stop⟩
  cases cells with
  | nil => rfl
  | cons cell rest =>
      rcases cell with ⟨start, char⟩
      cases stopped _ rfl
      rfl

theorem item_scanCells_of_isEnd (mode : Mode) (stop : Nat) {cells : List Cell}
    (ended : (scanCells mode stop cells).1.isEnd = true) :
    (scanCells mode stop cells).1 = .ofToken .eof (scanCells mode stop cells).2.offset
      (scanCells mode stop cells).2.offset := by
  induction cells with
  | nil => rfl
  | cons cell rest induction =>
      match cell with
      | ⟨start, none⟩ => rfl
      | ⟨start, some char⟩ =>
          simp only [scanCells] at ended ⊢
          cases charClass : CharClass.of char with
          | symbol token => simp [charClass, isEnd_symbol charClass] at ended
          | name => simp [charClass, Item.ofToken, Item.isEnd] at ended
          | digit => simp [charClass, isEnd_scanNumber] at ended
          | blank =>
              simp only [charClass] at ended ⊢
              exact induction ended
          | other =>
              simp only [charClass] at ended ⊢
              cases mode with
              | permissive => exact induction ended
              | strict => contradiction

end Cursor

/-! ## Operations -/

namespace Lexer

/-- What a lexer can be asked to do. -/
inductive Operation
  /-- To give an item, or nothing if it is finished. -/
  | next
  /-- To give an item in any case. -/
  | nextItem
  | setMode (mode : Mode)

/-- What an operation gives, and the lexer behind it. -/
def perform (lexer : Lexer) : Operation → Option Item × Lexer
  | .next => lexer.next?
  | .nextItem => (some lexer.nextItem.1, lexer.nextItem.2)
  | .setMode mode => (none, lexer.setMode mode)

/-- The lexer behind operations that are performed one after the other. -/
def after (lexer : Lexer) (operations : List Operation) : Lexer :=
  operations.foldl (fun lexer operation => (lexer.perform operation).2) lexer

/-- The items that such operations give. -/
def given (lexer : Lexer) : List Operation → List Item
  | [] => []
  | operation :: operations =>
      (lexer.perform operation).1.toList ++ (lexer.perform operation).2.given operations

/-- An operation gives nothing and leaves everything but the mode, or it gives the item that stands
at the cursor. -/
theorem perform_cases (lexer : Lexer) (operation : Operation) :
    (∃ mode, lexer.perform operation = (none, lexer.setMode mode)) ∨
      lexer.perform operation = (some (lexer.cursor.scan lexer.mode).1,
        ⟨(lexer.cursor.scan lexer.mode).2, lexer.mode,
          lexer.finished || (lexer.cursor.scan lexer.mode).1.isEnd⟩) := by
  cases operation with
  | next =>
      rw [perform, next?]
      split
      · exact .inl ⟨lexer.mode, rfl⟩
      · exact .inr rfl
  | nextItem => exact .inr rfl
  | setMode mode => exact .inl ⟨mode, rfl⟩

/-- What every operation keeps is kept by all of them. -/
theorem after_induction {motive : Lexer → Prop}
    (step : ∀ lexer operation, motive lexer → motive (lexer.perform operation).2)
    {lexer : Lexer} (holds : motive lexer) (operations : List Operation) :
    motive (lexer.after operations) := by
  induction operations generalizing lexer with
  | nil => exact holds
  | cons operation operations induction => exact induction (step lexer operation holds)

theorem exists_advanceBy_of_perform (lexer : Lexer) (operation : Operation) :
    ∃ count, (lexer.perform operation).2.cursor = lexer.cursor.advanceBy count ∧
      (count ≤ lexer.cursor.cells.length ∨
        lexer.cursor.cells ≠ [] ∧ count = lexer.cursor.cells.length + 1) := by
  rcases perform_cases lexer operation with ⟨mode, quiet⟩ | giving
  · rw [quiet]
    exact ⟨0, rfl, .inl (Nat.zero_le _)⟩
  · rw [giving]
    exact Cursor.exists_advanceBy_of_scan lexer.mode lexer.cursor

/-- However often a lexer is asked, it pulls past the end at most once. -/
theorem exists_advanceBy_of_after (lexer : Lexer) (operations : List Operation) :
    ∃ count, (lexer.after operations).cursor = lexer.cursor.advanceBy count ∧
      (count ≤ lexer.cursor.cells.length ∨
        lexer.cursor.cells ≠ [] ∧ count = lexer.cursor.cells.length + 1) := by
  apply after_induction (motive := fun later => ∃ count,
    later.cursor = lexer.cursor.advanceBy count ∧ (count ≤ lexer.cursor.cells.length ∨
      lexer.cursor.cells ≠ [] ∧ count = lexer.cursor.cells.length + 1))
  · rintro later operation ⟨count, cursor, within⟩
    rcases exists_advanceBy_of_perform later operation with ⟨more, equal, bound⟩
    have left : later.cursor.cells.length = lexer.cursor.cells.length - count := by
      rw [cursor, Cursor.advanceBy_eq, List.length_drop]
    refine ⟨count + more, by rw [equal, cursor, Cursor.advanceBy_add], ?_⟩
    rw [← List.length_pos_iff] at within bound ⊢
    rw [left] at bound
    omega
  · exact ⟨0, rfl, .inl (Nat.zero_le _)⟩

/-! ## Being finished -/

theorem after_cons (lexer : Lexer) (operation : Operation) (operations : List Operation) :
    lexer.after (operation :: operations) = (lexer.perform operation).2.after operations := rfl

theorem finished_after_iff (lexer : Lexer) (operations : List Operation) :
    (lexer.after operations).finished = true ↔
      lexer.finished = true ∨ ∃ item ∈ lexer.given operations, item.isEnd = true := by
  induction operations generalizing lexer with
  | nil => simp [after, given]
  | cons operation operations induction =>
      rw [after_cons, given, induction]
      rcases perform_cases lexer operation with ⟨mode, quiet⟩ | giving
      · rw [quiet]
        rfl
      · rw [giving]
        simp [or_assoc]

/-- A lexer is at the end of its source if it is finished. -/
def Settled (lexer : Lexer) : Prop := lexer.finished = true → lexer.cursor.Stopped

theorem settled_start (cursor : Cursor) : (start cursor).Settled := by
  intro finished
  contradiction

theorem settled_perform (lexer : Lexer) (operation : Operation) (settled : lexer.Settled) :
    (lexer.perform operation).2.Settled := by
  rcases perform_cases lexer operation with ⟨mode, quiet⟩ | giving
  · rw [quiet]
    exact settled
  · rw [giving]
    intro finished
    rcases Bool.or_eq_true_iff.mp finished with before | ended
    · rw [Cursor.scan_of_stopped (settled before)]
      exact settled before
    · exact Cursor.stopped_scanCells lexer.mode lexer.cursor.stop ended

/-- A finished lexer gives nothing or the end, and only its mode may change. -/
theorem exists_setMode_of_finished {lexer : Lexer} (settled : lexer.Settled)
    (finished : lexer.finished = true) (operations : List Operation) :
    ∃ mode, lexer.after operations = lexer.setMode mode := by
  apply after_induction (motive := fun later => ∃ mode, later = lexer.setMode mode)
  · rintro later operation ⟨mode, rfl⟩
    rcases perform_cases (lexer.setMode mode) operation with ⟨other, quiet⟩ | giving
    · exact ⟨other, by rw [quiet]; rfl⟩
    · rw [giving]
      have still : (lexer.setMode mode).cursor.Stopped := settled finished
      rw [Cursor.scan_of_stopped still]
      exact ⟨mode, by simp [setMode, finished]⟩
  · exact ⟨lexer.mode, rfl⟩

theorem next?_of_finished {lexer : Lexer} (finished : lexer.finished = true) :
    lexer.next? = (none, lexer) := by
  rw [next?, if_pos finished]

theorem nextItem_of_finished {lexer : Lexer} (settled : lexer.Settled)
    (finished : lexer.finished = true) :
    lexer.nextItem = (.ofToken .eof lexer.cursor.offset lexer.cursor.offset, lexer) := by
  rcases lexer with ⟨cursor, mode, done⟩
  cases finished
  rw [nextItem, Cursor.scan_of_stopped (settled rfl)]
  rfl

/-- The end that was given is the one that stands at the cursor from then on. -/
theorem eq_of_mem_given {lexer : Lexer} (settled : lexer.Settled) {operations : List Operation}
    {item : Item} (member : item ∈ lexer.given operations) (ended : item.isEnd = true) :
    item = .ofToken .eof (lexer.after operations).cursor.offset
      (lexer.after operations).cursor.offset := by
  induction operations generalizing lexer with
  | nil => contradiction
  | cons operation operations induction =>
      rw [given] at member
      rw [after_cons]
      have next := settled_perform lexer operation settled
      rcases List.mem_append.mp member with now | later
      · rcases perform_cases lexer operation with ⟨mode, quiet⟩ | giving
        · rw [quiet] at now
          contradiction
        · have finished : (lexer.perform operation).2.finished = true := by
            rw [giving] at now ⊢
            cases Option.mem_toList.mp now
            simp [ended]
          rcases exists_setMode_of_finished next finished operations with ⟨mode, equal⟩
          rw [equal]
          rw [giving] at now ⊢
          cases Option.mem_toList.mp now
          exact Cursor.item_scanCells_of_isEnd lexer.mode lexer.cursor.stop ended
      · exact induction next later

/-! ## Item after item -/

theorem perform_next_of_not_finished {lexer : Lexer} (unfinished : lexer.finished = false) :
    lexer.perform .next = (some (lexer.cursor.scan lexer.mode).1,
      ⟨(lexer.cursor.scan lexer.mode).2, lexer.mode,
        (lexer.cursor.scan lexer.mode).1.isEnd⟩) := by
  rcases lexer with ⟨cursor, mode, done⟩
  cases unfinished
  rfl

theorem given_next_of_finished {lexer : Lexer} (finished : lexer.finished = true) (count : Nat) :
    lexer.given (List.replicate count .next) = [] := by
  induction count with
  | zero => rfl
  | succ count induction =>
      rw [List.replicate_succ, given, perform, next?_of_finished finished]
      exact induction

/-- Asked for the next item any number of times, an unfinished lexer gives that many of the items
up to the end, and nothing behind them. -/
theorem given_next_of_not_finished {lexer : Lexer} (unfinished : lexer.finished = false)
    (count : Nat) :
    lexer.given (List.replicate count .next) = (lexer.cursor.drain lexer.mode).1.take count := by
  induction count generalizing lexer with
  | zero => rfl
  | succ count induction =>
      rw [List.replicate_succ, given, perform_next_of_not_finished unfinished]
      cases ended : (lexer.cursor.scan lexer.mode).1.isEnd with
      | true => rw [given_next_of_finished rfl, Cursor.drain_of_isEnd ended, List.append_nil,
          List.take_succ_cons, List.take_nil, Option.toList_some]
      | false =>
          rw [induction rfl, Cursor.drain_of_unfinished ended, List.take_succ_cons]
          rfl

/-- Every item but the end uses up a cell. -/
theorem length_perform_add_le (lexer : Lexer) (operation : Operation) :
    ((lexer.perform operation).1.toList.filter (!·.isEnd)).length +
      (lexer.perform operation).2.cursor.cells.length ≤ lexer.cursor.cells.length := by
  rcases perform_cases lexer operation with ⟨mode, quiet⟩ | giving
  · rw [quiet]
    exact Nat.le_of_eq (Nat.zero_add _)
  · rw [giving]
    cases ended : (lexer.cursor.scan lexer.mode).1.isEnd with
    | true =>
        have kept : (lexer.cursor.scan lexer.mode).2.cells <:+ lexer.cursor.cells :=
          Cursor.scanCells_suffix lexer.mode lexer.cursor.stop lexer.cursor.cells
        simpa [ended] using kept.length_le
    | false =>
        have used := Cursor.length_scan_lt ended
        simp only [Option.toList_some, List.filter_cons, ended, Bool.not_false, if_true,
          List.filter_nil, List.length_singleton]
        omega

theorem length_given_add_le (lexer : Lexer) (operations : List Operation) :
    ((lexer.given operations).filter (!·.isEnd)).length +
      (lexer.after operations).cursor.cells.length ≤ lexer.cursor.cells.length := by
  induction operations generalizing lexer with
  | nil => simp [given, after]
  | cons operation operations induction =>
      have first := length_perform_add_le lexer operation
      have further := induction (lexer.perform operation).2
      rw [after_cons, given, List.filter_append, List.length_append]
      omega

end Lexer

end Abacus
