import Abacus.Execution
import Abacus.Text.Utf8

/-! # Documents

What a path leads to, and the program that is read from it.

The bytes of a file are decoded while the lexer runs. A fault of the encoding is a
pull without a character to the lexer, which may look behind it, and even go on
there if the fault ends a line that it skips. The reading fails if any fault was
met, with the last one that was. -/

namespace Abacus

inductive Document
  | file (bytes : List UInt8)
  /-- Nothing that could be read. -/
  | unreadable (fault : AccessFault)
deriving DecidableEq, Inhabited

def AccessFault.ofEncoding : Text.Utf8.Fault → AccessFault
  | .invalid => .invalidData
  | .truncated => .unexpectedEnd

namespace Document

/-- The pulls of decoded bytes. Offsets count the characters only. -/
def pullsFrom (offset : Nat) : List Text.Utf8.Event → List Pull
  | [] => []
  | .char char :: rest => some (offset, char) :: pullsFrom (offset + char.utf8Size) rest
  | .fault _ :: rest => none :: pullsFrom offset rest

/-- The events that the lexer met: those it passed, the one it stopped at and the
one behind that. -/
def met (events : List Text.Utf8.Event) (final : Cursor) : List Text.Utf8.Event :=
  events.take (events.length - final.cells.length + 2)

def readBytes (mode : Mode) (bytes : List UInt8) : Except AccessFault (String × TokenStream) :=
  let events := Text.Utf8.decode bytes
  let (items, final) := (Cursor.ofPulls (pullsFrom 0 events)).drain mode
  match ((met events final).filterMap Text.Utf8.Event.fault?).getLast? with
  | some fault => .error (.ofEncoding fault)
  | none =>
      .ok (String.ofList ((met events final).filterMap Text.Utf8.Event.char?), .ofItems items)

/-- The text of a document and its tokens. -/
def read (mode : Mode) : Document → Except AccessFault (String × TokenStream)
  | file bytes => readBytes mode bytes
  | unreadable fault => .error fault

/-- Runs the program in a document against an empty store. -/
def interpret (mode : Mode) (path : String) (document : Document) : Run :=
  match document.read mode with
  | .error fault => ⟨.error (.access fault), []⟩
  | .ok (text, stream) => .ofStream ⟨path, text⟩ stream .empty

end Document

end Abacus
