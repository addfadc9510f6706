import Abacus.Lexer

/-! # Lexers in 32 bits

What a lexer holds while it runs: the current character and the next one, with the
offsets they stand at, in 32 bits. Each pull moves the next character to the front. A
pull past the end adds one to the next offset, which is the only sum of offsets here.
Where that sum does not fit it wraps, or nothing more is done, as the build has it. -/

namespace Abacus

/-- What a sum that does not fit into 32 bits leads to. -/
inductive Overflow
  /-- It is cut off. -/
  | wraps
  /-- There is no result, and no result of what needs it. -/
  | halts
deriving DecidableEq

structure Lookahead where
  position : UInt32
  nextPosition : UInt32
  char : Option Char
  nextChar : Option Char
  /-- What is still to be pulled. -/
  input : List (UInt32 × Char)
deriving DecidableEq

namespace Lookahead

/-- The sum, if it fits. -/
def add? (first second : UInt32) : Option UInt32 :=
  if first.toNat + second.toNat < UInt32.size then some (first + second) else none

end Lookahead

def Overflow.sum (overflow : Overflow) (first second : UInt32) : Option UInt32 :=
  match overflow with
  | .wraps => some (first + second)
  | .halts => Lookahead.add? first second

namespace Lookahead

/-- Before the first pull. -/
def unread (input : List (UInt32 × Char)) : Lookahead := ⟨0, 0, none, none, input⟩

def advance (overflow : Overflow) (ahead : Lookahead) : Option Lookahead :=
  match ahead.input with
  | (offset, char) :: rest =>
      some ⟨ahead.nextPosition, offset, ahead.nextChar, some char, rest⟩
  | [] =>
      (overflow.sum ahead.nextPosition 1).map fun further =>
        ⟨ahead.nextPosition, further, ahead.nextChar, none, []⟩

def advanceBy (overflow : Overflow) : Nat → Lookahead → Option Lookahead
  | 0, ahead => some ahead
  | count + 1, ahead => (advanceBy overflow count ahead).bind (advance overflow)

/-- How many characters are left, the current one included. -/
def left (ahead : Lookahead) : Nat :=
  ahead.char.toList.length + ahead.nextChar.toList.length + ahead.input.length

theorem left_advance_lt {overflow : Overflow} {ahead next : Lookahead} {char : Char}
    (current : ahead.char = some char) (pulled : ahead.advance overflow = some next) :
    next.left < ahead.left := by
  rcases ahead with ⟨position, nextPosition, first, second, input⟩
  cases current
  cases input with
  | nil =>
      rcases Option.map_eq_some_iff.mp pulled with ⟨further, _, rfl⟩
      simp [left]
  | cons pair rest =>
      cases pulled
      simp [left]
      omega

/-! ## One item -/

/-- The characters at the front that have a property, and what is ahead behind them. -/
def takeRun (overflow : Overflow) (property : Char → Bool) (ahead : Lookahead) :
    Option (List Char × Lookahead) :=
  match _current : ahead.char with
  | none => some ([], ahead)
  | some char =>
      if property char then
        match _pulled : ahead.advance overflow with
        | none => none
        | some next =>
            (takeRun overflow property next).map fun (chars, behind) => (char :: chars, behind)
      else some ([], ahead)
termination_by ahead.left
decreasing_by exact left_advance_lt _current _pulled

/-- The offset where the current line ends, and what is ahead behind its newline. -/
def skipLine (overflow : Overflow) (ahead : Lookahead) : Option (UInt32 × Lookahead) :=
  match _pulled : ahead.advance overflow with
  | none => none
  | some next =>
      match _current : ahead.char with
      | none => some (ahead.position, next)
      | some char =>
          if char = '\n' then some (ahead.position, next) else skipLine overflow next
termination_by ahead.left
decreasing_by exact left_advance_lt _current _pulled

/-- The current character as a token of its own. -/
def single (overflow : Overflow) (token : Token) (ahead : Lookahead) : Option (Item × Lookahead) :=
  (ahead.advance overflow).map fun behind =>
    (.ofToken token ahead.position.toNat behind.position.toNat, behind)

/-- A token whose text is the run of characters at the front. -/
def word (overflow : Overflow) (property : Char → Bool) (form : String → Token)
    (ahead : Lookahead) : Option (Item × Lookahead) :=
  (takeRun overflow property ahead).map fun (chars, behind) =>
    (.ofToken (form (String.ofList chars)) ahead.position.toNat behind.position.toNat, behind)

/-- The numeral at the front. A zero with a digit behind it is an error, and its line is
given up. -/
def number (overflow : Overflow) (ahead : Lookahead) : Option (Item × Lookahead) :=
  if ahead.char = some '0' then
    if ahead.nextChar.any Char.isDigit then
      (skipLine overflow ahead).map fun (lineEnd, behind) =>
        (.ofCause .leadingZero ahead.position.toNat lineEnd.toNat, behind)
    else single overflow (.int "0") ahead
  else word overflow Char.isDigit .int ahead

def nextItem (overflow : Overflow) (mode : Mode) (ahead : Lookahead) :
    Option (Item × Lookahead) :=
  match _current : ahead.char with
  | none => some (.ofToken .eof ahead.position.toNat ahead.position.toNat, ahead)
  | some char =>
      match CharClass.of char with
      | .symbol token => single overflow token ahead
      | .name => word overflow isNamePart .ident ahead
      | .digit => number overflow ahead
      | .blank =>
          match _pulled : ahead.advance overflow with
          | none => none
          | some next => nextItem overflow mode next
      | .other =>
          match _pulled : ahead.advance overflow with
          | none => none
          | some next =>
              match mode with
              | .permissive => nextItem overflow mode next
              | .strict =>
                  some (.ofCause (.unrecognized char) ahead.position.toNat next.position.toNat,
                    next)
termination_by ahead.left
decreasing_by all_goals exact left_advance_lt _current _pulled

end Lookahead

/-! ## Item by item -/

/-- A lexer in the middle of its work. -/
structure Scanner where
  ahead : Lookahead
  mode : Mode
  finished : Bool
deriving DecidableEq

namespace Scanner

/-- Two pulls bring the first character to the front. -/
def start (overflow : Overflow) (input : List (UInt32 × Char)) : Option Scanner :=
  ((Lookahead.unread input).advanceBy overflow 2).map fun ahead => ⟨ahead, .permissive, false⟩

def setMode (scanner : Scanner) (mode : Mode) : Scanner := { scanner with mode }

/-- Reads an item, again the end if the end was already reached. -/
def nextItem (overflow : Overflow) (scanner : Scanner) : Option (Item × Scanner) :=
  (scanner.ahead.nextItem overflow scanner.mode).map fun (item, ahead) =>
    (item, { scanner with ahead, finished := scanner.finished || item.isEnd })

/-- Reads an item, and nothing once the end was read. -/
def next? (overflow : Overflow) (scanner : Scanner) : Option (Option Item × Scanner) :=
  if scanner.finished then some (none, scanner)
  else (scanner.nextItem overflow).map fun (item, after) => (some item, after)

end Scanner

end Abacus
