import Abacus.Proofs.Lines

/-! # Layouts

How the characters of a text are divided into items: a gap that is passed over, the
characters of an item, the next gap, and so on up to the end. Every text has a layout, and
lexing gives the items of it, each at the place where its characters stand. -/

namespace Abacus

/-! ## Widths -/

/-- How many bytes the characters take. -/
def byteSize (chars : List Char) : Nat := (String.ofList chars).utf8ByteSize

@[simp] theorem byteSize_nil : byteSize [] = 0 := rfl

@[simp] theorem byteSize_cons (char : Char) (chars : List Char) :
    byteSize (char :: chars) = char.utf8Size + byteSize chars := by
  rw [byteSize, String.ofList_cons, String.utf8ByteSize_append, String.utf8ByteSize_singleton,
    byteSize]

@[simp] theorem byteSize_append (first second : List Char) :
    byteSize (first ++ second) = byteSize first + byteSize second := by
  rw [byteSize, String.ofList_append, String.utf8ByteSize_append, byteSize, byteSize]

@[simp] theorem byteSize_toList (text : String) : byteSize text.toList = text.utf8ByteSize := by
  rw [byteSize, String.ofList_toList]

theorem byteSize_pos {chars : List Char} (inhabited : chars ≠ []) : 0 < byteSize chars := by
  cases chars with
  | nil => contradiction
  | cons char chars =>
      have positive := char.utf8Size_pos
      rw [byteSize_cons]
      omega

/-! ## Passing over characters -/

/-- The characters that a token can begin with. -/
def beginsToken (char : Char) : Bool :=
  (symbol? char).isSome || isNameStart char || char.isDigit

/-- The characters that are passed over between items. -/
def Mode.skips (mode : Mode) (char : Char) : Bool :=
  Text.isWhiteSpace char || (mode == .permissive && !beginsToken char)

theorem beginsToken_of_isNamePart {char : Char} (part : isNamePart char = true) :
    beginsToken char = true := by
  rcases isNamePart_iff.mp part with start | digit
  · simp [beginsToken, start]
  · simp [beginsToken, digit]

/-- What is passed over can be no part of a name or of a numeral. -/
theorem Mode.not_isNamePart_of_skips {mode : Mode} {char : Char}
    (skips : mode.skips char = true) : isNamePart char = false := by
  cases part : isNamePart char with
  | false => rfl
  | true =>
      have white : Text.isWhiteSpace char = true := by
        simpa [Mode.skips, beginsToken_of_isNamePart part] using skips
      exact part.symm.trans (not_isNamePart_of_isWhiteSpace white)

namespace CharClass

theorem of_other {char : Char} (begins : beginsToken char = false)
    (visible : Text.isWhiteSpace char = false) : of char = .other := by
  simp only [beginsToken, Bool.or_eq_false_iff, Option.isSome_eq_false_iff,
    Option.isNone_iff_eq_none] at begins
  simp [of, begins, visible]

theorem beginsToken_of_ne {char : Char} (begins : beginsToken char = true) :
    of char ≠ .blank ∧ of char ≠ .other := by
  simp only [beginsToken, Bool.or_eq_true, Option.isSome_iff_exists] at begins
  rcases begins with (⟨token, symbol⟩ | start) | digit
  · simp [of_symbol symbol]
  · simp [of_nameStart start]
  · simp [of_digit digit]

end CharClass

namespace Cursor

/-- The cells of characters that stand from an offset on. -/
def cellsFrom (offset : Nat) (chars : List Char) : List Cell :=
  (offsetsFrom offset chars).map ofPair

theorem cellsFrom_cons (offset : Nat) (char : Char) (chars : List Char) :
    cellsFrom offset (char :: chars) =
      ⟨offset, some char⟩ :: cellsFrom (offset + char.utf8Size) chars := rfl

theorem cellsFrom_append (offset : Nat) (first second : List Char) :
    cellsFrom offset (first ++ second) =
      cellsFrom offset first ++ cellsFrom (offset + byteSize first) second := by
  rw [cellsFrom, offsetsFrom_append, List.map_append]
  rfl

theorem cellsFrom_add (offset amount : Nat) (chars : List Char) :
    cellsFrom (offset + amount) chars =
      (cellsFrom offset chars).map fun cell => ⟨cell.offset + amount, cell.char⟩ := by
  rw [cellsFrom, offsetsFrom_add, cellsFrom, List.map_map, List.map_map]
  rfl

theorem ofText_eq_cellsFrom (text : String) :
    ofText text = ⟨cellsFrom 0 text.toList, (ofText text).stop⟩ := by
  rw [ofText_eq]
  rfl

theorem holds_cellsFrom (offset : Nat) (chars : List Char) :
    Holds (cellsFrom offset chars) chars := by
  have read := congrArg (List.map some) (char_offsetsFrom offset chars)
  rw [Holds, ← read, cellsFrom, List.map_map, List.map_map]
  rfl

theorem offset_cellsFrom (offset stop : Nat) {chars : List Char} (inhabited : chars ≠ []) :
    Cursor.offset ⟨cellsFrom offset chars, stop⟩ = offset := by
  cases chars with
  | nil => contradiction
  | cons char chars => rfl

theorem scan_skip {mode : Mode} {gap : List Char} (skips : ∀ char ∈ gap, mode.skips char = true)
    (offset stop : Nat) (chars : List Char) :
    scan mode ⟨cellsFrom offset (gap ++ chars), stop⟩ =
      scan mode ⟨cellsFrom (offset + byteSize gap) chars, stop⟩ := by
  induction gap generalizing offset with
  | nil => rfl
  | cons char gap induction =>
      have further := induction (fun other member => skips other (List.mem_cons_of_mem _ member))
        (offset + char.utf8Size)
      rw [byteSize_cons, ← Nat.add_assoc, ← further]
      have passed := skips char List.mem_cons_self
      rw [List.cons_append, cellsFrom_cons]
      cases white : Text.isWhiteSpace char with
      | true => simp only [scan, scanCells, CharClass.of_whiteSpace white]
      | false =>
          simp only [Mode.skips, white, Bool.false_or, Bool.and_eq_true, beq_iff_eq,
            Bool.not_eq_true'] at passed
          rcases passed with ⟨rfl, begins⟩
          simp only [scan, scanCells, CharClass.of_other begins white]

end Cursor

/-! ## One item -/

namespace Token

theorem utf8Size_of_isNamePart {char : Char} (part : isNamePart char = true) :
    char.utf8Size = 1 := by
  rw [isNamePart_iff, isNameStart_iff, Char.isDigit_iff_toNat] at part
  change _ ∨ 48 ≤ char.toNat ∧ char.toNat ≤ 57 at part
  rw [Char.utf8Size_eq_one_iff, UInt32.le_iff_toNat_le]
  change char.toNat ≤ 127
  omega

/-- All characters of a text that is a name, a numeral or a symbol take one byte. -/
theorem utf8Size_of_mem_text {token : Token} (spelled : token.isSpelled = true) {char : Char}
    (member : char ∈ token.text.toList) : char.utf8Size = 1 := by
  cases token with
  | int digits =>
      have digit := isDigit_of_isNumeral spelled _ member
      exact utf8Size_of_isNamePart (isNamePart_iff.mpr (.inr digit))
  | ident name => exact utf8Size_of_isNamePart (isNamePart_of_isName spelled _ member)
  | malformed => contradiction
  | eof => contradiction
  | _ =>
      cases List.mem_singleton.mp member
      rfl

theorem exists_head_of_isSpelled {token : Token} (spelled : token.isSpelled = true) :
    ∃ first more, token.text.toList = first :: more ∧ beginsToken first = true := by
  cases token with
  | int digits =>
      simp only [isSpelled, isNumeral] at spelled
      split at spelled
      · contradiction
      · next first more equal =>
          simp only [Bool.and_eq_true] at spelled
          exact ⟨first, more, equal, by simp [beginsToken, spelled]⟩
  | ident name =>
      simp only [isSpelled, isName] at spelled
      split at spelled
      · contradiction
      · next first more equal =>
          simp only [Bool.and_eq_true] at spelled
          exact ⟨first, more, equal, by simp [beginsToken, spelled]⟩
  | malformed => contradiction
  | eof => contradiction
  | _ => exact ⟨_, [], rfl, rfl⟩

end Token

/-- The end of characters that stand from an offset on is one past the start of the last. -/
def EndsAt (stop offset : Nat) (chars : List Char) : Prop :=
  ∀ front last, chars = front ++ [last] → stop = offset + byteSize front + 1

namespace EndsAt

theorem of_append {stop offset : Nat} {front rest : List Char}
    (ends : EndsAt stop offset (front ++ rest)) : EndsAt stop (offset + byteSize front) rest := by
  rintro middle last rfl
  have equal := ends (front ++ middle) last (List.append_assoc ..).symm
  rw [byteSize_append] at equal
  omega

theorem lt_of_ne_nil {stop offset : Nat} {chars : List Char} (ends : EndsAt stop offset chars)
    (inhabited : chars ≠ []) : offset < stop := by
  have equal := ends _ _ (List.dropLast_concat_getLast inhabited).symm
  omega

/-- The end does not stand behind the characters, but it may stand within the last of them. -/
theorem le_of_ne_nil {stop offset : Nat} {chars : List Char} (ends : EndsAt stop offset chars)
    (inhabited : chars ≠ []) : stop ≤ offset + byteSize chars := by
  have split := List.dropLast_concat_getLast inhabited
  have equal := ends _ _ split.symm
  have size := congrArg byteSize split
  rw [byteSize_append, byteSize_cons, byteSize_nil] at size
  have positive := (chars.getLast inhabited).utf8Size_pos
  omega

/-- Where the last character takes one byte, nothing stands behind the end. -/
theorem eq_of_narrow {stop offset : Nat} {chars : List Char} (ends : EndsAt stop offset chars)
    (inhabited : chars ≠ []) (narrow : ∀ char ∈ chars, char.utf8Size = 1) :
    stop = offset + byteSize chars := by
  have split := List.dropLast_concat_getLast inhabited
  have size := congrArg byteSize split
  rw [byteSize_append, byteSize_cons, byteSize_nil,
    narrow _ (List.getLast_mem inhabited)] at size
  have equal := ends _ _ split.symm
  omega

theorem eq_of_isSpelled {stop offset : Nat} {token : Token} (spelled : token.isSpelled = true)
    (ends : EndsAt stop offset token.text.toList) :
    stop = offset + token.text.utf8ByteSize := by
  rcases Token.exists_head_of_isSpelled spelled with ⟨first, more, text, _⟩
  have equal := ends.eq_of_narrow (by simp [text])
    fun char member => Token.utf8Size_of_mem_text spelled member
  rw [byteSize_toList] at equal
  exact equal

theorem ofText (text : String) : EndsAt (Cursor.ofText text).stop 0 text.toList := by
  intro front last equal
  rw [Cursor.ofText_eq, equal, Cursor.offsetsFrom_append]
  simp [Cursor.offsetsFrom, byteSize]

end EndsAt

/-- An item at the front: the offset it starts at, the end of the source, the characters that
belong to it and those behind them, and the end of the source behind it. -/
inductive Entry (mode : Mode) (offset stop : Nat) :
    List Char → List Char → Item → Nat → Prop
  | token {token : Token} {rest : List Char} (spelled : token.isSpelled = true)
      (ends : ∀ char ∈ rest.head?, token.endsBefore char = true) :
      Entry mode offset stop token.text.toList rest
        (.ofToken token offset (offset + token.text.utf8ByteSize)) stop
  | unrecognized {char : Char} {rest : List Char} (strict : mode = .strict)
      (begins : beginsToken char = false) (visible : Text.isWhiteSpace char = false) :
      Entry mode offset stop [char] rest
        (.ofCause (.unrecognized char) offset
          (if rest = [] then stop else offset + char.utf8Size)) stop
  /-- A numeral with a leading zero takes its whole line along. -/
  | line {second : Char} {line rest : List Char} (digit : second.isDigit = true)
      (unbroken : '\n' ∉ line) :
      Entry mode offset stop ('0' :: second :: line ++ ['\n']) rest
        (.ofCause .leadingZero offset (offset + byteSize ('0' :: second :: line))) stop
  /-- On the last line that is all up to the end, which then is one further on. -/
  | lastLine {second : Char} {line : List Char} (digit : second.isDigit = true)
      (unbroken : '\n' ∉ line) :
      Entry mode offset stop ('0' :: second :: line) []
        (.ofCause .leadingZero offset stop) (stop + 1)

namespace Cursor

variable {mode : Mode} {offset stop : Nat}

/-- A token reaches from where it starts to where the rest starts. -/
theorem span_of_scanCells {char : Char} (begins : beginsToken char = true) {rest : List Cell}
    {lexeme : Lexeme} {behind : Cursor}
    (read : scanCells mode stop (⟨offset, some char⟩ :: rest) = (.read lexeme, behind)) :
    lexeme.span = ⟨offset, behind.offset⟩ := by
  have visible := CharClass.beginsToken_of_ne begins
  simp only [scanCells] at read
  cases charClass : CharClass.of char with
  | symbol token =>
      simp only [charClass, Item.ofToken, Prod.mk.injEq, Item.read.injEq] at read
      rw [← read.1, ← read.2]
  | name =>
      simp only [charClass, Item.ofToken, Prod.mk.injEq, Item.read.injEq] at read
      rw [← read.1, ← read.2]
  | digit =>
      simp only [charClass, scanNumber] at read
      split at read
      · split at read
        · simp [Item.ofCause] at read
        · simp only [Item.ofToken, Prod.mk.injEq, Item.read.injEq] at read
          rw [← read.1, ← read.2]
      · simp only [Item.ofToken, Prod.mk.injEq, Item.read.injEq] at read
        rw [← read.1, ← read.2]
  | blank => exact absurd charClass visible.1
  | other => exact absurd charClass visible.2

theorem eq_cellsFrom_of_suffix {word rest : List Char} {behind : List Cell}
    (suffix : behind <:+ cellsFrom offset (word ++ rest)) (holds : Holds behind rest) :
    behind = cellsFrom (offset + byteSize word) rest := by
  have sameLength : behind.length = (cellsFrom (offset + byteSize word) rest).length := by
    have first := congrArg List.length holds
    have second := congrArg List.length (holds_cellsFrom (offset + byteSize word) rest)
    rw [List.length_map] at first second
    rw [first, second]
  rw [cellsFrom_append] at suffix
  have inner := List.suffix_of_suffix_length_le suffix (List.suffix_append _ _)
    (Nat.le_of_eq sameLength)
  exact inner.eq_of_length sameLength

theorem scan_token {token : Token} (spelled : token.isSpelled = true) {rest : List Char}
    (ends : ∀ char ∈ rest.head?, token.endsBefore char = true)
    (endsAt : EndsAt stop offset (token.text.toList ++ rest)) :
    scan mode ⟨cellsFrom offset (token.text.toList ++ rest), stop⟩ =
      (.ofToken token offset (offset + token.text.utf8ByteSize),
        ⟨cellsFrom (offset + token.text.utf8ByteSize) rest, stop⟩) := by
  have reads : Reads mode stop (cellsFrom offset (token.text.toList ++ rest)) token rest :=
    reads_token spelled ends (holds_cellsFrom offset _)
  rcases reads with ⟨span, behind, read, behindHolds⟩
  have suffix := scanCells_suffix mode stop (cellsFrom offset (token.text.toList ++ rest))
  rw [read] at suffix
  have behindCells := eq_cellsFrom_of_suffix suffix behindHolds
  rw [byteSize_toList] at behindCells
  subst behindCells
  have place : span = ⟨offset, offset + token.text.utf8ByteSize⟩ := by
    rcases Token.exists_head_of_isSpelled spelled with ⟨first, more, text, begins⟩
    have cells : cellsFrom offset (token.text.toList ++ rest) =
        ⟨offset, some first⟩ :: cellsFrom (offset + first.utf8Size) (more ++ rest) := by
      rw [text, List.cons_append, cellsFrom_cons]
    rw [cells] at read
    have reached := span_of_scanCells begins read
    by_cases final : rest = []
    · subst final
      rw [List.append_nil] at endsAt
      rw [← endsAt.eq_of_isSpelled spelled]
      exact reached
    · rw [offset_cellsFrom _ _ final] at reached
      exact reached
  rw [scan, read, place]
  rfl

theorem skipLine_cellsFrom {line : List Char} (unbroken : '\n' ∉ line) (rest : List Char) :
    skipLine stop (cellsFrom offset (line ++ '\n' :: rest)) =
      (offset + byteSize line, ⟨cellsFrom (offset + byteSize line + 1) rest, stop⟩) := by
  induction line generalizing offset with
  | nil => rfl
  | cons char line induction =>
      rw [List.mem_cons, not_or] at unbroken
      rw [List.cons_append, cellsFrom_cons, skipLine, if_neg (Ne.symm unbroken.1),
        induction unbroken.2, byteSize_cons, Nat.add_assoc offset]

theorem skipLine_cellsFrom_last {line : List Char} (unbroken : '\n' ∉ line) :
    skipLine stop (cellsFrom offset line) = (stop, ⟨[], stop + 1⟩) := by
  induction line generalizing offset with
  | nil => rfl
  | cons char line induction =>
      rw [List.mem_cons, not_or] at unbroken
      rw [cellsFrom_cons, skipLine, if_neg (Ne.symm unbroken.1), induction unbroken.2]

theorem not_mem_cons_of_isDigit {second : Char} (digit : second.isDigit = true)
    {line : List Char} (unbroken : '\n' ∉ line) : '\n' ∉ second :: line := by
  rw [List.mem_cons, not_or]
  refine ⟨?_, unbroken⟩
  rintro rfl
  contradiction

theorem scan_leadingZero {second : Char} (digit : second.isDigit = true) (chars : List Char) :
    scan mode ⟨cellsFrom offset ('0' :: second :: chars), stop⟩ =
      (.ofCause .leadingZero offset (skipLine stop (cellsFrom (offset + 1) (second :: chars))).1,
        (skipLine stop (cellsFrom (offset + 1) (second :: chars))).2) := by
  have zero : CharClass.of '0' = .digit := by decide
  have size : ('0').utf8Size = 1 := by decide
  have starts : startsWith ⟨cellsFrom (offset + 1) (second :: chars), stop⟩ Char.isDigit = true :=
    digit
  rw [cellsFrom_cons, size]
  simp only [scan, scanCells, zero, scanNumber, starts, if_true]

theorem scan_entry {word rest : List Char} {item : Item} {further : Nat}
    (entry : Entry mode offset stop word rest item further)
    (endsAt : EndsAt stop offset (word ++ rest)) :
    scan mode ⟨cellsFrom offset (word ++ rest), stop⟩ =
      (item, ⟨cellsFrom (offset + byteSize word) rest, further⟩) := by
  cases entry with
  | token spelled ends =>
      rw [byteSize_toList]
      exact scan_token spelled ends endsAt
  | unrecognized strict begins visible =>
      rename_i char
      subst strict
      rw [List.singleton_append, cellsFrom_cons, byteSize_cons, byteSize_nil, Nat.add_zero]
      simp only [scan, scanCells, CharClass.of_other begins visible]
      cases rest with
      | nil => rfl
      | cons next rest => rfl
  | line digit unbroken =>
      rename_i second line
      have zero : ('0').utf8Size = 1 := by decide
      have newline : ('\n').utf8Size = 1 := by decide
      have covered : offset + 1 + byteSize (second :: line) =
          offset + byteSize ('0' :: second :: line) := by
        rw [byteSize_cons '0', zero, Nat.add_assoc]
      rw [List.append_assoc, List.cons_append, List.cons_append, scan_leadingZero digit,
        ← List.cons_append, List.singleton_append,
        skipLine_cellsFrom (not_mem_cons_of_isDigit digit unbroken), covered, byteSize_append,
        byteSize_cons '\n', byteSize_nil, newline, Nat.add_assoc]
  | lastLine digit unbroken =>
      rw [List.append_nil, scan_leadingZero digit,
        skipLine_cellsFrom_last (not_mem_cons_of_isDigit digit unbroken)]
      rfl

end Cursor

/-! ## Finding an item -/

theorem head_dropWhile (property : Char → Bool) (chars : List Char) :
    ∀ char ∈ (chars.dropWhile property).head?, property char = false := by
  intro char member
  have stops := List.head?_dropWhile_not property chars
  rw [member] at stops
  exact stops

namespace Entry

variable {mode : Mode} (offset stop : Nat)

/-- Some characters at the front make an item. -/
def Starts (mode : Mode) (offset stop : Nat) (chars : List Char) : Prop :=
  ∃ word rest item behind, chars = word ++ rest ∧ Entry mode offset stop word rest item behind

theorem starts_of_token {token : Token} (spelled : token.isSpelled = true)
    {chars rest : List Char} (equal : chars = token.text.toList ++ rest)
    (ends : ∀ char ∈ rest.head?, token.endsBefore char = true) :
    Starts mode offset stop chars :=
  ⟨_, rest, _, stop, equal, .token spelled ends⟩

theorem starts_of_symbol {char : Char} {token : Token} (symbol : symbol? char = some token)
    (chars : List Char) : Starts mode offset stop (char :: chars) := by
  have spelled := Cursor.isSpelled_of_symbol? symbol
  have text : token.text.toList = [char] ∧ ∀ next, token.endsBefore next = true := by
    unfold symbol? at symbol
    split at symbol <;> first | contradiction | (cases symbol; exact ⟨rfl, fun _ => rfl⟩)
  exact starts_of_token offset stop spelled (by rw [text.1]; rfl) fun next _ => text.2 next

/-- A character and the run behind it make an item if no token of that form goes on further. -/
theorem starts_of_run {char : Char} {chars : List Char} (property : Char → Bool)
    (form : String → Token) (text : ∀ word, (form word).text = word)
    (spelled : (form (String.ofList (char :: chars.takeWhile property))).isSpelled = true)
    (ends : ∀ word next, property next = false → (form word).endsBefore next = true) :
    Starts mode offset stop (char :: chars) := by
  have split : char :: chars =
      (form (String.ofList (char :: chars.takeWhile property))).text.toList ++
        chars.dropWhile property := by
    rw [text, String.toList_ofList, List.cons_append, List.takeWhile_append_dropWhile]
  apply starts_of_token offset stop spelled split
  intro next member
  exact ends _ next (head_dropWhile property chars next member)

theorem starts_of_nameStart {char : Char} (start : isNameStart char = true) (chars : List Char) :
    Starts mode offset stop (char :: chars) := by
  apply starts_of_run offset stop isNamePart .ident fun _ => rfl
  · simp [Token.isSpelled, isName, start]
  · intro word next other
    simp [Token.endsBefore, other]

theorem starts_of_nonzero {char : Char} (digit : char.isDigit = true) (nonzero : char ≠ '0')
    (chars : List Char) : Starts mode offset stop (char :: chars) := by
  apply starts_of_run offset stop Char.isDigit .int fun _ => rfl
  · simp [Token.isSpelled, isNumeral, digit, nonzero]
  · intro word next other
    simp [Token.endsBefore, other]

theorem starts_of_leadingZero {second : Char} (digit : second.isDigit = true)
    (chars : List Char) : Starts mode offset stop ('0' :: second :: chars) := by
  by_cases broken : '\n' ∈ chars
  · rcases List.eq_append_cons_of_mem broken with ⟨line, rest, rfl, unbroken⟩
    exact ⟨_, rest, _, stop, by simp, .line digit unbroken⟩
  · exact ⟨_, [], _, stop + 1, (List.append_nil _).symm, .lastLine digit broken⟩

theorem starts_of_zero (chars : List Char) : Starts mode offset stop ('0' :: chars) := by
  have spelled : (Token.int "0").isSpelled = true := by decide
  cases chars with
  | nil => exact starts_of_token offset stop spelled rfl fun _ member => nomatch member
  | cons second chars =>
      cases digit : second.isDigit with
      | true => exact starts_of_leadingZero offset stop digit chars
      | false =>
          refine starts_of_token offset stop spelled rfl fun next member => ?_
          cases member
          simp [Token.endsBefore, digit]

theorem starts_of_not_skips {char : Char} (shown : mode.skips char = false) (chars : List Char) :
    Starts mode offset stop (char :: chars) := by
  cases begins : beginsToken char with
  | true =>
      simp only [beginsToken, Bool.or_eq_true, Option.isSome_iff_exists] at begins
      rcases begins with (⟨token, symbol⟩ | start) | digit
      · exact starts_of_symbol offset stop symbol chars
      · exact starts_of_nameStart offset stop start chars
      · by_cases zero : char = '0'
        · subst zero
          exact starts_of_zero offset stop chars
        · exact starts_of_nonzero offset stop digit zero chars
  | false =>
      simp only [Mode.skips, begins, Bool.or_eq_false_iff, Bool.not_false, Bool.and_true] at shown
      have strict : mode = .strict := by
        cases mode with
        | permissive => exact absurd shown.2 (by decide)
        | strict => rfl
      exact ⟨[char], chars, _, stop, rfl, .unrecognized strict begins shown.1⟩

end Entry

/-! ## What every item keeps to -/

namespace Entry

variable {mode : Mode} {offset stop behind : Nat} {word rest : List Char} {item : Item}

theorem word_ne_nil (entry : Entry mode offset stop word rest item behind) : word ≠ [] := by
  cases entry with
  | token spelled ends =>
      rcases Token.exists_head_of_isSpelled spelled with ⟨first, more, text, _⟩
      simp [text]
  | _ => simp

theorem isEnd_eq_false (entry : Entry mode offset stop word rest item behind) :
    item.isEnd = false := by
  cases entry with
  | token spelled ends =>
      rename_i token
      cases token <;> first | rfl | contradiction
  | unrecognized strict begins visible => rfl
  | line digit unbroken => rfl
  | lastLine digit unbroken => rfl

theorem endsAt (entry : Entry mode offset stop word rest item behind)
    (endsAt : EndsAt stop offset (word ++ rest)) :
    EndsAt behind (offset + byteSize word) rest := by
  cases entry with
  | lastLine digit unbroken =>
      intro front last equal
      simp at equal
  | _ => exact endsAt.of_append

end Entry

/-! ## All items -/

/-- How characters that stand from an offset on are divided into items, the last of which is
the end of the source. -/
inductive Layout (mode : Mode) : Nat → Nat → List Char → List Item → Prop
  | ended {offset stop : Nat} {gap : List Char}
      (skips : ∀ char ∈ gap, mode.skips char = true) :
      Layout mode offset stop gap [.ofToken .eof stop stop]
  | item {offset stop behind : Nat} {gap word rest : List Char} {item : Item} {items : List Item}
      (skips : ∀ char ∈ gap, mode.skips char = true)
      (entry : Entry mode (offset + byteSize gap) stop word rest item behind)
      (further : Layout mode (offset + byteSize gap + byteSize word) behind rest items) :
      Layout mode offset stop (gap ++ (word ++ rest)) (item :: items)

namespace Layout

variable {mode : Mode}

theorem exists_items (mode : Mode) (offset stop : Nat) (chars : List Char) :
    ∃ items, Layout mode offset stop chars items := by
  have split := List.takeWhile_append_dropWhile (p := mode.skips) (l := chars)
  have skips : ∀ char ∈ chars.takeWhile mode.skips, mode.skips char = true :=
    fun char member => List.all_eq_true.mp List.all_takeWhile char member
  cases shown : chars.dropWhile mode.skips with
  | nil =>
      rw [shown, List.append_nil] at split
      rw [← split]
      exact ⟨_, .ended skips⟩
  | cons char later =>
      have notSkipped := head_dropWhile mode.skips chars char (by rw [shown]; rfl)
      rcases Entry.starts_of_not_skips (offset + byteSize (chars.takeWhile mode.skips)) stop
        notSkipped later with ⟨word, rest, item, behind, equal, entry⟩
      have shorter : rest.length < chars.length := by
        have length := congrArg List.length split
        rw [shown, equal, List.length_append, List.length_append] at length
        have positive := List.length_pos_iff.mpr entry.word_ne_nil
        omega
      rcases exists_items mode (offset + byteSize (chars.takeWhile mode.skips) + byteSize word)
        behind rest with ⟨items, further⟩
      rw [← split, shown, equal]
      exact ⟨_, .item skips entry further⟩
termination_by chars.length

/-- Lexing gives the items of the layout. -/
theorem drain_eq {offset stop : Nat} {chars : List Char} {items : List Item}
    (layout : Layout mode offset stop chars items) (endsAt : EndsAt stop offset chars) :
    (Cursor.drain mode ⟨Cursor.cellsFrom offset chars, stop⟩).1 = items := by
  induction layout with
  | ended skips =>
      rename_i offset stop gap
      have scanned := Cursor.scan_skip skips offset stop []
      rw [List.append_nil] at scanned
      rw [Cursor.drain_congr scanned, Cursor.drain_of_isEnd rfl]
      rfl
  | item skips entry further induction =>
      rename_i offset stop behind gap word rest item items
      have scanned := Cursor.scan_entry entry endsAt.of_append
      rw [Cursor.drain_congr (Cursor.scan_skip skips offset stop _),
        Cursor.drain_of_unfinished (by rw [scanned]; exact entry.isEnd_eq_false), scanned]
      rw [induction (entry.endsAt endsAt.of_append)]

theorem of_text (mode : Mode) (text : String) :
    Layout mode 0 (Cursor.ofText text).stop text.toList (lex mode text) := by
  rcases exists_items mode 0 (Cursor.ofText text).stop text.toList with ⟨items, layout⟩
  have drained := layout.drain_eq (EndsAt.ofText text)
  rw [← Cursor.ofText_eq_cellsFrom] at drained
  rw [lex, drained]
  exact layout

end Layout

end Abacus
