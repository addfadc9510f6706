import Abacus.TokenStream

/-! # Lexing step by step

What holds of every single item holds of all items of a source. The items end with
the end of the source, and only there. -/

namespace Abacus

namespace Cursor

/-- A fact about cursors, from the end of a source to its front. -/
theorem scan_induction (mode : Mode) {motive : Cursor → Prop}
    (ended : ∀ cursor, (cursor.scan mode).1.isEnd = true → motive cursor)
    (unfinished : ∀ cursor, (cursor.scan mode).1.isEnd = false →
      motive (cursor.scan mode).2 → motive cursor)
    (cursor : Cursor) : motive cursor := by
  cases atEnd : (cursor.scan mode).1.isEnd with
  | true => exact ended cursor atEnd
  | false => exact unfinished cursor atEnd (scan_induction mode ended unfinished _)
termination_by cursor.cells.length
decreasing_by exact length_scan_lt atEnd

variable {mode : Mode}

theorem forall_mem_drain {property : Item → Prop}
    (step : ∀ cursor, property (scan mode cursor).1) (cursor : Cursor) :
    ∀ item ∈ (cursor.drain mode).1, property item := by
  intro item member
  induction cursor using scan_induction mode with
  | ended cursor atEnd =>
      rw [drain_of_isEnd atEnd, List.mem_singleton] at member
      rw [member]
      exact step cursor
  | unfinished cursor going induction =>
      rw [drain_of_unfinished going] at member
      rcases List.mem_cons.mp member with same | member
      · rw [same]
        exact step cursor
      · exact induction member

/-- Every item but the last uses up a cell, and the last one is the only end among them. -/
theorem exists_front_of_drain (mode : Mode) (cursor : Cursor) :
    ∃ front final, (cursor.drain mode).1 = front ++ [final] ∧ final.isEnd = true ∧
      (∀ item ∈ front, item.isEnd = false) ∧ front.length ≤ cursor.cells.length := by
  induction cursor using scan_induction mode with
  | ended cursor atEnd =>
      rw [drain_of_isEnd atEnd]
      exact ⟨[], _, rfl, atEnd, nofun, Nat.zero_le _⟩
  | unfinished cursor going induction =>
      rcases induction with ⟨front, final, equal, atEnd, notEnd, short⟩
      rw [drain_of_unfinished going, equal]
      refine ⟨(cursor.scan mode).1 :: front, final, rfl, atEnd, ?_, ?_⟩
      · intro item member
        rcases List.mem_cons.mp member with rfl | member
        · exact going
        · exact notEnd item member
      · exact Nat.lt_of_le_of_lt short (length_scan_lt going)

theorem exists_end_of_drain (mode : Mode) (cursor : Cursor) :
    ∃ front final, (cursor.drain mode).1 = front ++ [final] ∧ final.isEnd = true := by
  rcases exists_front_of_drain mode cursor with ⟨front, final, equal, atEnd, _⟩
  exact ⟨front, final, equal, atEnd⟩

theorem drain_congr {first second : Cursor} (same : first.scan mode = second.scan mode) :
    first.drain mode = second.drain mode := by
  cases atEnd : (second.scan mode).1.isEnd with
  | true => rw [drain_of_isEnd atEnd, drain_of_isEnd (same ▸ atEnd), same]
  | false =>
      have firstOver : (first.scan mode).1.isEnd = false := by rw [same, atEnd]
      rw [drain_of_unfinished atEnd, drain_of_unfinished firstOver, same]

end Cursor

/-! ## Texts -/

theorem Item.exists_of_isEnd {item : Item} (isEnd : item.isEnd = true) :
    ∃ span, item = .read ⟨.eof, span⟩ := by
  unfold Item.isEnd at isEnd
  split at isEnd
  · next span => exact ⟨span, rfl⟩
  · contradiction

theorem Item.token_ne_eof {item : Item} (notEnd : item.isEnd = false) :
    item.lexeme.token ≠ .eof := by
  match item with
  | .read ⟨token, span⟩ =>
      rintro rfl
      contradiction
  | .failed error => exact Token.noConfusion

namespace Cursor

def ofPair (pair : Nat × Char) : Cell := ⟨pair.1, some pair.2⟩

/-- The end stands one past the last character, or past what came before. -/
theorem after_pairs (previous : Nat) (pairs : List (Nat × Char)) :
    after previous (pairs.map some) =
      ⟨pairs.map ofPair, (pairs.getLast?.map (·.1)).getD previous + 1⟩ := by
  induction pairs generalizing previous with
  | nil => rfl
  | cons pair pairs induction =>
      rw [List.map_cons, after, induction, List.getLast?_cons]
      cases pairs.getLast? <;> rfl

theorem ofText_eq (text : String) :
    ofText text = ⟨(offsetsFrom 0 text.toList).map ofPair,
      ((offsetsFrom 0 text.toList).getLast?.map (·.1)).getD 0 + 1⟩ :=
  after_pairs 0 _

theorem offsetsFrom_append (offset : Nat) (first second : List Char) :
    offsetsFrom offset (first ++ second) =
      offsetsFrom offset first ++
        offsetsFrom (offset + (String.ofList first).utf8ByteSize) second := by
  induction first generalizing offset with
  | nil => rfl
  | cons char first induction =>
      rw [List.cons_append, offsetsFrom, induction, offsetsFrom, List.cons_append,
        String.ofList_cons, String.utf8ByteSize_append, String.utf8ByteSize_singleton,
        Nat.add_assoc]

theorem offsetsFrom_add (offset amount : Nat) (chars : List Char) :
    offsetsFrom (offset + amount) chars =
      (offsetsFrom offset chars).map fun pair => (pair.1 + amount, pair.2) := by
  induction chars generalizing offset with
  | nil => rfl
  | cons char chars induction =>
      rw [offsetsFrom, offsetsFrom, List.map_cons, ← induction, Nat.add_right_comm]

theorem char_offsetsFrom (offset : Nat) (chars : List Char) :
    (offsetsFrom offset chars).map (·.2) = chars := by
  induction chars generalizing offset with
  | nil => rfl
  | cons char chars induction => rw [offsetsFrom, List.map_cons, induction]

end Cursor

namespace TokenStream

/-- The items of a text end with the end already, so no token is added. -/
theorem lexemes_ofText (mode : Mode) (text : String) :
    (ofText mode text).lexemes = (lex mode text).map Item.lexeme := by
  rcases Cursor.exists_end_of_drain mode (Cursor.ofText text) with ⟨front, final, equal, atEnd⟩
  rcases Item.exists_of_isEnd atEnd with ⟨span, rfl⟩
  rw [ofText, ofItems, lex, equal]
  simp [closed, Item.lexeme]

end TokenStream

end Abacus
