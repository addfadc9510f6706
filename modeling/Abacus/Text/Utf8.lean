/-! # UTF-8

Bytes read as characters one after the other. Bytes that are no character make a
fault, and the reading goes on behind them:

* a byte that starts no sequence is a fault of its own;
* a sequence that is broken off by a byte of another kind is a fault, and that byte
  is read anew;
* a sequence that is broken off by the end of the bytes is a fault of another kind;
* a complete sequence is a fault if its number is no character, or needed fewer
  bytes. -/

namespace Abacus.Text.Utf8

inductive Fault
  /-- Bytes that are no character. -/
  | invalid
  /-- The bytes end within a character. -/
  | truncated
deriving DecidableEq, Inhabited

/-- What is read: a character or a fault. -/
inductive Event
  | char (char : Char)
  | fault (fault : Fault)
deriving DecidableEq, Inhabited

def isContinuation (byte : UInt8) : Bool :=
  0x80 ≤ byte.toNat && byte.toNat < 0xC0

/-- What the first byte of a sequence says. -/
structure Lead where
  /-- How many bytes follow. -/
  following : Nat
  /-- The bits of the number that the first byte holds. -/
  bits : Nat
  /-- The least number that needs a sequence of this length. -/
  least : Nat

def lead? (byte : UInt8) : Option Lead :=
  let number := byte.toNat
  if number < 0x80 then some ⟨0, number, 0⟩
  else if number < 0xC0 then none
  else if number < 0xE0 then some ⟨1, number - 0xC0, 0x80⟩
  else if number < 0xF0 then some ⟨2, number - 0xE0, 0x800⟩
  else if number < 0xF8 then some ⟨3, number - 0xF0, 0x10000⟩
  else none

/-- Takes the given number of continuation bytes and adds their bits to a number. -/
def follow : Nat → Nat → List UInt8 → Except Fault Nat × List UInt8
  | 0, number, bytes => (.ok number, bytes)
  | _ + 1, _, [] => (.error .truncated, [])
  | count + 1, number, byte :: rest =>
      if isContinuation byte then follow count (number * 64 + (byte.toNat - 0x80)) rest
      else (.error .invalid, byte :: rest)

/-- The character of a number, if it has one and needed the bytes it took. -/
def character (least number : Nat) : Event :=
  if number.isValidChar ∧ least ≤ number then .char (Char.ofNat number) else .fault .invalid

/-- Reads the sequence that starts with the given byte. -/
def decodeOne (first : UInt8) (bytes : List UInt8) : Event × List UInt8 :=
  match lead? first with
  | none => (.fault .invalid, bytes)
  | some lead =>
      match follow lead.following lead.bits bytes with
      | (.error fault, rest) => (.fault fault, rest)
      | (.ok number, rest) => (character lead.least number, rest)

theorem length_follow_le (count number : Nat) (bytes : List UInt8) :
    (follow count number bytes).2.length ≤ bytes.length := by
  induction count generalizing number bytes with
  | zero => simp [follow]
  | succ count induction =>
      match bytes with
      | [] => simp [follow]
      | byte :: rest =>
          simp only [follow]
          split
          · exact Nat.le_succ_of_le (induction _ rest)
          · simp

theorem length_decodeOne_le (first : UInt8) (bytes : List UInt8) :
    (decodeOne first bytes).2.length ≤ bytes.length := by
  unfold decodeOne
  split
  · exact Nat.le_refl _
  · next lead _ =>
      have := length_follow_le lead.following lead.bits bytes
      split <;> next equal => simpa [equal] using this

/-- Everything that the bytes are read as. -/
def decode (bytes : List UInt8) : List Event :=
  match bytes with
  | [] => []
  | first :: rest =>
      let step := decodeOne first rest
      step.1 :: decode step.2
termination_by bytes.length
decreasing_by exact Nat.lt_succ_of_le (length_decodeOne_le first rest)

/-- A broken sequence does not take the byte that breaks it. -/
example : decode [0xE3, 0x81, 0x78, 0xFF, 0xC3] =
    [.fault .invalid, .char 'x', .fault .invalid, .fault .truncated] := by
  decide +kernel

namespace Event

def char? : Event → Option Char
  | .char read => some read
  | .fault _ => none

def fault? : Event → Option Fault
  | .char _ => none
  | .fault cause => some cause

end Event

/-- The text that the bytes encode, if there is no fault among them. -/
def text? (bytes : List UInt8) : Option String :=
  let events := decode bytes
  if events.all fun event => event.fault?.isNone then
    some (String.ofList (events.filterMap Event.char?))
  else none

end Abacus.Text.Utf8
