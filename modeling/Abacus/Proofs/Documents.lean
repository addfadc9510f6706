import Abacus.Document
import Abacus.Proofs.Decoding
import Abacus.Proofs.Lines

/-! # Reading documents

The lexer goes on until it stands at the end of the bytes or at a fault of the encoding, so it
meets a fault if there is one. Where there is none, it reads the text that the bytes encode. -/

namespace Abacus

open Text.Utf8

/-! ## Where the lexer stops -/

namespace Cursor

/-- There is no current character. -/
def Stopped (cursor : Cursor) : Prop := ∀ cell ∈ cursor.cells.head?, cell.char = none

theorem stopped_scanCells (mode : Mode) (stop : Nat) {cells : List Cell}
    (ended : (scanCells mode stop cells).1.isEnd = true) :
    (scanCells mode stop cells).2.Stopped := by
  induction cells with
  | nil => simp [scanCells, Stopped]
  | cons cell rest induction =>
      rcases cell with ⟨start, char⟩
      cases char with
      | none => simp [scanCells, Stopped]
      | some char =>
          simp only [scanCells] at ended ⊢
          cases charClass : CharClass.of char with
          | symbol token => simp [charClass, isEnd_symbol charClass] at ended
          | name => simp [charClass, Item.ofToken, Item.isEnd] at ended
          | digit => simp [charClass, isEnd_scanNumber] at ended
          | blank =>
              simp only [charClass] at ended ⊢
              exact induction ended
          | other =>
              simp only [charClass] at ended ⊢
              cases mode with
              | permissive => exact induction ended
              | strict => contradiction

theorem drain_suffix_and_stopped (mode : Mode) (cursor : Cursor) :
    (cursor.drain mode).2.cells <:+ cursor.cells ∧ (cursor.drain mode).2.Stopped := by
  induction cursor using scan_induction mode with
  | ended cursor atEnd =>
      rw [drain_of_isEnd atEnd]
      exact ⟨scanCells_suffix mode cursor.stop cursor.cells, stopped_scanCells mode _ atEnd⟩
  | unfinished cursor going induction =>
      rw [drain_of_unfinished going]
      exact ⟨induction.1.trans (scanCells_suffix mode cursor.stop cursor.cells), induction.2⟩

end Cursor

namespace Document

/-! ## Faults that are met -/

/-- The events that the lexer meets in the events of a whole document. -/
def metBy (mode : Mode) (events : List Event) : List Event :=
  met events ((Cursor.ofPulls (pullsFrom 0 events)).drain mode).2

theorem char_cells_pullsFrom (previous offset : Nat) (events : List Event) :
    (Cursor.after previous (pullsFrom offset events)).cells.map (·.char) =
      events.map Event.char? := by
  induction events generalizing previous offset with
  | nil => rfl
  | cons event events induction =>
      match event with
      | .char char => simp [pullsFrom, Cursor.after, induction, Event.char?]
      | .fault fault => simp [pullsFrom, Cursor.after, induction, Event.char?]

theorem met_append {final : Cursor} (front : List Event) {back : List Event}
    (left : back.length = final.cells.length) :
    met (front ++ back) final = front ++ back.take 2 := by
  have passed : (front ++ back).length - final.cells.length + 2 = front.length + 2 := by
    rw [List.length_append, left, Nat.add_sub_cancel]
  rw [met, passed, List.take_length_add_append]

/-- Behind the events that the lexer passed there is nothing, or a fault that it met. -/
theorem metBy_cases (mode : Mode) (events : List Event) :
    metBy mode events = events ∨ ∃ fault, Event.fault fault ∈ metBy mode events := by
  have chars : (Cursor.ofPulls (pullsFrom 0 events)).cells.map (·.char) = _ :=
    char_cells_pullsFrom 0 0 events
  rcases Cursor.drain_suffix_and_stopped mode (Cursor.ofPulls (pullsFrom 0 events)) with
    ⟨⟨passed, split⟩, stopped⟩
  rw [← split, List.map_append] at chars
  rcases List.map_eq_append_iff.mp chars.symm with ⟨front, back, equal, _, same⟩
  have left := congrArg List.length same
  rw [List.length_map, List.length_map] at left
  have met : metBy mode events = front ++ back.take 2 := by
    rw [metBy, ← met_append front left, equal]
  rw [met]
  match back with
  | [] => exact .inl (by rw [equal, List.take_nil])
  | .fault fault :: back => exact .inr ⟨fault, by simp⟩
  | .char char :: back =>
      -- The lexer does not stop at a character.
      have first := congrArg List.head? same
      rw [List.head?_map, List.head?_map] at first
      rcases Option.map_eq_some_iff.mp first.symm with ⟨cell, found, read⟩
      rw [stopped cell found] at read
      contradiction

theorem metBy_chars (mode : Mode) (chars : List Char) :
    metBy mode (chars.map .char) = chars.map .char := by
  rcases metBy_cases mode (chars.map .char) with all | ⟨fault, member⟩
  · exact all
  · have found := List.mem_of_mem_take member
    simp at found

theorem exists_fault_of_metBy (mode : Mode) {events : List Event} {fault : Fault}
    (member : Event.fault fault ∈ events) : ∃ fault, Event.fault fault ∈ metBy mode events := by
  rcases metBy_cases mode events with all | found
  · exact ⟨fault, all.symm ▸ member⟩
  · exact found

/-! ## Reading bytes -/

theorem readBytes_eq (mode : Mode) (bytes : List UInt8) :
    readBytes mode bytes =
      match ((metBy mode (decode bytes)).filterMap Event.fault?).getLast? with
      | some fault => .error (.ofEncoding fault)
      | none =>
          .ok (String.ofList ((metBy mode (decode bytes)).filterMap Event.char?),
            .ofItems ((Cursor.ofPulls (pullsFrom 0 (decode bytes))).drain mode).1) := rfl

theorem readBytes_of_fault (mode : Mode) {bytes : List UInt8} {fault : Fault}
    (member : Event.fault fault ∈ decode bytes) :
    ∃ fault, readBytes mode bytes = .error (.ofEncoding fault) := by
  rcases exists_fault_of_metBy mode member with ⟨other, met⟩
  rw [readBytes_eq]
  split
  · next last _ => exact ⟨last, rfl⟩
  · next none =>
      rw [List.getLast?_eq_none_iff, List.filterMap_eq_nil_iff] at none
      exact absurd (none _ met) nofun

theorem pullsFrom_chars (offset : Nat) (chars : List Char) :
    pullsFrom offset (chars.map .char) = (Cursor.offsetsFrom offset chars).map some := by
  induction chars generalizing offset with
  | nil => rfl
  | cons char chars induction =>
      rw [List.map_cons, pullsFrom, induction]
      rfl

theorem readBytes_encode (mode : Mode) (text : String) :
    readBytes mode (encode text) = .ok (text, TokenStream.ofText mode text) := by
  have faults : (text.toList.map Event.char).filterMap Event.fault? = [] := by
    simp [List.filterMap_map, Function.comp_def, Event.fault?]
  have chars : (text.toList.map Event.char).filterMap Event.char? = text.toList := by
    simp [List.filterMap_map, Function.comp_def, Event.char?]
  rw [readBytes_eq, decode_encode, metBy_chars, faults, chars, pullsFrom_chars,
    String.ofList_toList]
  rfl

theorem readBytes_cases (mode : Mode) (bytes : List UInt8) :
    (∃ text, bytes = encode text ∧
      readBytes mode bytes = .ok (text, TokenStream.ofText mode text)) ∨
    ((∀ text, bytes ≠ encode text) ∧
      ∃ fault, readBytes mode bytes = .error (.ofEncoding fault)) := by
  by_cases encoded : ∃ text, bytes = encode text
  · rcases encoded with ⟨text, rfl⟩
    exact .inl ⟨text, rfl, readBytes_encode mode text⟩
  · have unencoded : ∀ text, bytes ≠ encode text := not_exists.mp encoded
    rcases exists_fault_of_forall_ne unencoded with ⟨fault, member⟩
    exact .inr ⟨unencoded, readBytes_of_fault mode member⟩

end Document

/-! ## Running documents -/

/-- The failure in a source of another name. -/
def Failure.named (name : String) : Failure → Failure
  | .parsing source error => .parsing { source with name } error
  | .evaluation source error => .evaluation { source with name } error
  | .access fault => .access fault

def Warning.named (name : String) (warning : Warning) : Warning :=
  { warning with source := { warning.source with name } }

/-- The run of a source of another name. -/
def Run.named (name : String) (run : Run) : Run :=
  ⟨run.result.mapError (Failure.named name), run.warnings.map (Warning.named name)⟩

theorem execute_named (name : String) (source : Source) (store : Store) (input : List Lexeme) :
    execute { source with name } store input =
      (execute source store input).mapError (Failure.named name) := by
  fun_induction execute source store input with
  | case1 store input due error rest failed =>
      rw [execute, if_pos due, failed]
      rfl
  | case2 store input due assignment rest shorter read error failed =>
      rw [execute, if_pos due, read]
      simp only [failed]
      rfl
  | case3 store input due assignment rest shorter read after evaluated induction =>
      rw [execute, if_pos due, read]
      simp only [evaluated]
      exact induction
  | case4 store input finished =>
      rw [execute, if_neg finished]
      rfl

theorem Run.ofStream_named (name : String) (source : Source) (stream : TokenStream)
    (store : Store) :
    ofStream { source with name } stream store = (ofStream source stream store).named name := by
  rw [ofStream, execute_named, ofStream, named, List.map_map]
  rfl

theorem Document.interpret_encode (mode : Mode) (path text : String) :
    (file (encode text)).interpret mode path = (Run.ofText mode text .empty).named path := by
  rw [interpret, read, readBytes_encode]
  exact Run.ofStream_named path ⟨"<input>", text⟩ (TokenStream.ofText mode text) .empty

/-- A document is read exactly if it holds the bytes of a text, as that text and its tokens. Every
other document fails because of its encoding, both to be read and to be run. Running a document
that holds a text comes to the same as running the text, but for the name of the source. -/
theorem read_iff_encodes (mode : Mode) :
    (∀ bytes text stream, (Document.file bytes).read mode = .ok (text, stream) ↔
      bytes = encode text ∧ stream = TokenStream.ofText mode text) ∧
    (∀ bytes, (∃ fault, (Document.file bytes).read mode = .error (.ofEncoding fault) ∧
        ∀ path, (Document.file bytes).interpret mode path =
          ⟨.error (.access (.ofEncoding fault)), []⟩) ↔
      ∀ text, bytes ≠ encode text) ∧
    (∀ path text, (Document.file (encode text)).interpret mode path =
      (Run.ofText mode text .empty).named path) := by
  refine ⟨fun bytes text stream => ?_, fun bytes => ?_, Document.interpret_encode mode⟩
  · simp only [Document.read]
    constructor
    · intro read
      rcases Document.readBytes_cases mode bytes with ⟨encoded, equal, done⟩ | ⟨_, fault, failed⟩
      · rw [done, Except.ok.injEq, Prod.mk.injEq] at read
        rcases read with ⟨rfl, rfl⟩
        exact ⟨equal, rfl⟩
      · rw [failed] at read
        contradiction
    · rintro ⟨rfl, rfl⟩
      exact Document.readBytes_encode mode text
  · simp only [Document.interpret, Document.read]
    rcases Document.readBytes_cases mode bytes with ⟨text, equal, done⟩ | ⟨unencoded, fault, failed⟩
    · rw [done]
      exact ⟨nofun, fun unencoded => absurd equal (unencoded text)⟩
    · rw [failed]
      exact ⟨fun _ => unencoded, fun _ => ⟨fault, rfl, fun _ => rfl⟩⟩

/-- The lexer goes on behind a fault that ends a line it gives up, and the reading fails. -/
example : (Document.file [0x30, 0x30, 0xFF, 0x78]).read .strict = .error .invalidData := by
  cbv

end Abacus
