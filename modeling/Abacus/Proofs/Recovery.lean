import Abacus.Proofs.Excerpts

/-! # Recovering from errors

Where the lexer meets an error it gives up some characters and goes on behind them. It never
gives up more than the rest of a line, so the tokens and the errors of a text are those of its
lines, one after the other.

The span of an error covers what was given up, up to the end that the lexer sees. The end of a
source stands one past the start of its last character, so a span that reaches it is too short if
that character takes several bytes. -/

namespace Abacus

/-! ## What is given up -/

/-- A numeral with a leading zero starts behind some characters. They do not end with a part of a
name or of a numeral, so the zero is the first character of it. -/
def ZeroLed (before chars : List Char) : Prop :=
  (∃ digit more, chars = '0' :: digit :: more ∧ digit.isDigit = true) ∧
    ∀ char ∈ before.getLast?, isNamePart char = false

theorem ZeroLed.of_append {first second chars : List Char}
    (zeroLed : ZeroLed (first ++ second) chars) : ZeroLed second chars := by
  refine ⟨zeroLed.1, fun char last => zeroLed.2 char ?_⟩
  rw [List.getLast?_append, Option.mem_def.mp last]
  rfl

/-- The characters that are given up for a cause, between those before and those behind them: a
single character that begins no token, or all of a line from the first zero of a numeral on. -/
def LexicalCause.GivesUp : LexicalCause → List Char → List Char → List Char → Prop
  | unrecognized char, _, piece, _ =>
      piece = [char] ∧ beginsToken char = false ∧ Text.isWhiteSpace char = false
  | leadingZero, before, piece, behind =>
      ZeroLed before piece ∧ '\n' ∉ piece ∧ ∀ char ∈ behind.head?, char = '\n'

theorem LexicalCause.givesUp_leadingZero {second : Char} {before line behind : List Char}
    (noPart : ∀ char ∈ before.getLast?, isNamePart char = false)
    (digit : second.isDigit = true) (unbroken : '\n' ∉ line)
    (ends : ∀ char ∈ behind.head?, char = '\n') :
    leadingZero.GivesUp before ('0' :: second :: line) behind := by
  refine ⟨⟨⟨second, line, rfl, digit⟩, noPart⟩, ?_, ends⟩
  exact Cursor.not_mem_cons_of_isDigit rfl (Cursor.not_mem_cons_of_isDigit digit unbroken)

namespace Token

/-- Only names and numerals have more than one character. -/
theorem isNamePart_of_mem_text {token : Token} (spelled : token.isSpelled = true)
    (long : 1 < token.text.toList.length) :
    ∀ char ∈ token.text.toList, isNamePart char = true := by
  cases token with
  | int digits =>
      intro char member
      exact isNamePart_iff.mpr (.inr (isDigit_of_isNumeral spelled char member))
  | ident name => exact isNamePart_of_isName spelled
  | malformed => contradiction
  | eof => contradiction
  | _ => exact absurd long (by decide)

/-- A zero is a token of its own, and no digit follows it. -/
theorem eq_nil_of_zero {token : Token} (spelled : token.isSpelled = true) {more : List Char}
    (text : token.text.toList = '0' :: more) :
    more = [] ∧ ∀ char, token.endsBefore char = !char.isDigit := by
  cases token with
  | int digits =>
      change digits.toList = _ at text
      have numeral : more.all Char.isDigit = true ∧ more = [] := by
        simpa [isSpelled, isNumeral, text] using spelled
      exact ⟨numeral.2, fun _ => rfl⟩
  | ident name =>
      change name.toList = _ at text
      simp [isSpelled, isName, text, isNameStart] at spelled
  | malformed => contradiction
  | eof => contradiction
  | _ => exact absurd text (by simp [Token.text])

end Token

namespace Entry

variable {mode : Mode} {offset stop further : Nat} {word rest : List Char} {item : Item}

/-- Before a digit, no item ends with a part of a name or of a numeral. -/
theorem not_isNamePart_of_isDigit (entry : Entry mode offset stop word rest item further)
    {digit : Char} (next : digit ∈ rest.head?) (isDigit : digit.isDigit = true) :
    ∀ char ∈ word.getLast?, isNamePart char = false := by
  intro char last
  cases entry with
  | token spelled ends =>
      rename_i token
      have ended := ends digit next
      cases token with
      | int digits => simp [Token.endsBefore, isDigit] at ended
      | ident name =>
          have part : isNamePart digit = true := isNamePart_iff.mpr (.inr isDigit)
          simp [Token.endsBefore, part] at ended
      | malformed => contradiction
      | eof => contradiction
      | _ =>
          cases last
          rfl
  | unrecognized strict begins visible =>
      cases last
      rw [← Bool.not_eq_true]
      intro part
      exact absurd (beginsToken_of_isNamePart part) (by simp [begins])
  | line digit unbroken =>
      rw [List.getLast?_concat] at last
      cases last
      rfl
  | lastLine digit unbroken => contradiction

/-- A numeral with a leading zero that starts within an item takes the rest of a line along. -/
theorem newline_mem_of_zeroLed (entry : Entry mode offset stop word rest item further)
    {front back more behind : List Char} (whole : word = front ++ back)
    (next : rest = more ++ behind) (inhabited : back ≠ []) (goesOn : behind ≠ [])
    (zeroLed : ZeroLed front (back ++ more)) : '\n' ∈ back := by
  rcases zeroLed with ⟨⟨digit, others, equal, isDigit⟩, noPart⟩
  rcases List.exists_cons_of_ne_nil inhabited with ⟨first, later, rfl⟩
  rw [List.cons_append, List.cons.injEq] at equal
  rcases equal with ⟨rfl, equal⟩
  cases entry with
  | token spelled ends =>
      exfalso
      rcases List.eq_nil_or_concat front with rfl | ⟨init, last, rfl⟩
      · rcases Token.eq_nil_of_zero spelled whole with ⟨rfl, endsBefore⟩
        rw [List.nil_append] at equal
        have ended := ends digit (by simp [next, equal])
        simp [endsBefore, isDigit] at ended
      · have long := congrArg List.length whole
        rw [List.length_append, List.length_concat, List.length_cons] at long
        have part := Token.isNamePart_of_mem_text spelled (by omega) last (by simp [whole])
        exact absurd part (by simp [noPart last (by simp)])
  | unrecognized strict begins visible =>
      rcases List.append_eq_singleton_iff.mp whole.symm with ⟨_, single⟩ | ⟨_, empty⟩
      · cases single
        contradiction
      · contradiction
  | line digit unbroken =>
      have last := congrArg List.getLast? whole
      rw [List.getLast?_concat, List.getLast?_append, List.getLast?_eq_some_getLast inhabited,
        Option.some_or] at last
      rw [Option.some.inj last]
      exact List.getLast_mem inhabited
  | lastLine digit unbroken => exact absurd (List.append_eq_nil_iff.mp next.symm).2 goesOn

theorem of_failed {error : LexicalError}
    (entry : Entry mode offset stop word rest (.failed error) further)
    (endsAt : EndsAt stop offset (word ++ rest)) {before : List Char}
    (starts : ∀ digit ∈ word.head?, digit.isDigit = true →
      ∀ char ∈ before.getLast?, isNamePart char = false) :
    ∃ piece behind, word ++ rest = piece ++ behind ∧ piece ≠ [] ∧
      error.cause.GivesUp before piece behind ∧ error.span.start = offset ∧
      (behind ≠ [] → error.span.stop = offset + byteSize piece) ∧
      (behind = [] → EndsAt error.span.stop offset piece) := by
  cases entry with
  | unrecognized strict begins visible =>
      rename_i char
      refine ⟨[char], rest, rfl, by simp, ⟨rfl, begins, visible⟩, rfl, ?_, ?_⟩
      · intro inner
        rw [if_neg inner, byteSize_cons, byteSize_nil, Nat.add_zero]
      · rintro rfl
        exact endsAt
  | line digit unbroken =>
      rename_i second line
      refine ⟨'0' :: second :: line, '\n' :: rest, by simp, by simp, ?_, rfl, fun _ => rfl, ?_⟩
      · exact LexicalCause.givesUp_leadingZero (starts '0' rfl rfl) digit unbroken (by simp)
      · intro empty
        contradiction
  | lastLine digit unbroken =>
      rename_i second line
      refine ⟨'0' :: second :: line, [], rfl, by simp, ?_, rfl, by simp, fun _ => ?_⟩
      · exact LexicalCause.givesUp_leadingZero (starts '0' rfl rfl) digit unbroken (by simp)
      · rwa [List.append_nil] at endsAt

end Entry

namespace Layout.Front

variable {mode : Mode} {front gap rest : List Char}

theorem append_gap (laid : Front mode front (gap ++ rest))
    (skips : ∀ char ∈ gap, mode.skips char = true) : Front mode (front ++ gap) rest := by
  generalize behind : gap ++ rest = chars at laid
  induction laid with
  | gap first =>
      apply Front.gap
      intro char member
      exact (List.mem_append.mp member).elim (first char) (skips char)
  | item first entry further induction =>
      subst behind
      rw [← List.append_assoc] at entry
      rw [List.append_assoc, List.append_assoc]
      exact .item first entry (induction rfl)

theorem not_isNamePart_of_isDigit (laid : Front mode front rest) {digit : Char}
    (next : digit ∈ rest.head?) (isDigit : digit.isDigit = true) :
    ∀ char ∈ front.getLast?, isNamePart char = false := by
  induction laid with
  | gap skips =>
      intro char last
      exact Mode.not_isNamePart_of_skips (skips char (List.mem_of_getLast? last))
  | item skips entry further induction =>
      rename_i gap word front rest item
      intro char last
      rw [List.getLast?_append, List.getLast?_append] at last
      cases final : front.getLast? with
      | some other =>
          rw [final] at last
          exact induction next char (final.trans last)
      | none =>
          rw [List.getLast?_eq_none_iff] at final
          subst final
          rw [List.getLast?_nil, Option.none_or,
            List.getLast?_eq_some_getLast entry.word_ne_nil] at last
          apply entry.not_isNamePart_of_isDigit next isDigit char
          rw [List.getLast?_eq_some_getLast entry.word_ne_nil]
          exact last

/-- What is read before the rest of a line starts no numeral with a leading zero in that line. -/
theorem newline_mem_of_zeroLed (laid : Front mode front rest) (goesOn : rest ≠ [])
    {start chars : List Char} (split : front = start ++ chars) (zeroLed : ZeroLed start chars) :
    '\n' ∈ chars := by
  induction laid generalizing start chars with
  | gap skips =>
      rcases zeroLed with ⟨⟨digit, more, rfl, _⟩, _⟩
      exact absurd (Mode.not_isNamePart_of_skips (skips '0' (by simp [split]))) (by decide)
  | item skips entry further induction =>
      rename_i gap word front rest item
      -- The numeral starts behind the gap or in it, where no zero stands. Behind the gap it starts
      -- within the item or further on.
      rcases List.append_eq_append_iff.mp split with ⟨within, rfl, parts⟩ | ⟨within, rfl, rfl⟩
      · replace zeroLed := zeroLed.of_append
        rcases List.append_eq_append_iff.mp parts with
          ⟨later, rfl, equal⟩ | ⟨back, whole, rfl⟩
        · exact induction goesOn equal zeroLed.of_append
        · by_cases empty : back = []
          · subst empty
            have fresh : ZeroLed [] front := ⟨zeroLed.1, by simp⟩
            exact induction goesOn (List.nil_append front).symm fresh
          · have broken := entry.newline_mem_of_zeroLed whole rfl empty goesOn zeroLed
            exact List.mem_append_left _ broken
      · cases within with
        | nil =>
            have fresh : ZeroLed [] (word ++ front) := ⟨zeroLed.1, by simp⟩
            have broken := entry.newline_mem_of_zeroLed rfl rfl entry.word_ne_nil goesOn fresh
            rw [List.nil_append]
            exact List.mem_append_left front broken
        | cons first within =>
            rcases zeroLed with ⟨⟨digit, more, equal, _⟩, _⟩
            rw [List.cons_append, List.cons.injEq] at equal
            rcases equal with ⟨rfl, _⟩
            exact absurd (Mode.not_isNamePart_of_skips (skips '0' (by simp))) (by decide)

end Layout.Front

theorem exists_given_up_of_failed {mode : Mode} {text : String} {error : LexicalError}
    (reported : .failed error ∈ lex mode text) :
    ∃ before piece behind, text.toList = before ++ piece ++ behind ∧ piece ≠ [] ∧
      error.cause.GivesUp before piece behind ∧
      (∀ front rest, before = front ++ rest → ZeroLed front rest → '\n' ∈ rest) ∧
      error.span.start = byteSize before ∧
      (behind ≠ [] → error.span.stop = byteSize (before ++ piece)) ∧
      (behind = [] → EndsAt error.span.stop (byteSize before) piece) := by
  rcases List.append_of_mem reported with ⟨earlier, later, items⟩
  rcases exists_layout_of_lex items (by simp) with
    ⟨front, rest, stop, equal, layout, endsAt, laid⟩
  rcases layout.of_cons with ⟨_, isEnd, _⟩ | ⟨gap, word, final, further, rfl, skips, entry, _⟩
  · contradiction
  · have reached := laid.append_gap skips
    have inhabitedWord := entry.word_ne_nil
    have starts : ∀ digit ∈ word.head?, digit.isDigit = true →
        ∀ char ∈ (front ++ gap).getLast?, isNamePart char = false := by
      intro digit first
      apply reached.not_isNamePart_of_isDigit
      rw [List.head?_append, Option.mem_def.mp first]
      rfl
    rcases entry.of_failed endsAt.of_append starts with
      ⟨piece, behind, split, inhabited, givesUp, start, inner, last⟩
    rw [← byteSize_append] at start inner last
    refine ⟨front ++ gap, piece, behind, ?_, inhabited, givesUp, ?_, start, ?_, last⟩
    · rw [equal, split]
      simp
    · intro first others parts zeroLed
      exact reached.newline_mem_of_zeroLed (by simp [inhabitedWord]) parts zeroLed
    · intro further
      rw [inner further, byteSize_append (front ++ gap)]

/-- Every lexical error starts at the characters that are given up for it: the one that begins no
token, or those from the first zero of a numeral up to the next newline or to the end of the text.
No numeral with a leading zero stands before them in their line. The span covers exactly these
characters, unless they end the text with a character of several bytes. What ends the text is
covered up to the first byte of its last character. -/
theorem lexical_error_spans (mode : Mode) (text : String) (error : LexicalError)
    (reported : .failed error ∈ lex mode text) :
    ∃ before piece behind : String, text = before ++ piece ++ behind ∧
      error.cause.GivesUp before.toList piece.toList behind.toList ∧
      (∀ front rest, before.toList = front ++ rest → ZeroLed front rest → '\n' ∈ rest) ∧
      error.span.start = before.utf8ByteSize ∧
      (behind ≠ "" ∨ (∀ last ∈ piece.toList.getLast?, last.utf8Size = 1) →
        error.span.stop = (before ++ piece).utf8ByteSize) ∧
      (behind = "" → ∃ front last, piece = front ++ String.singleton last ∧
        error.span.stop = (before ++ front).utf8ByteSize + 1) := by
  rcases exists_given_up_of_failed reported with
    ⟨before, piece, behind, equal, inhabited, givesUp, earliest, start, inner, atEnd⟩
  have whole : text = String.ofList before ++ String.ofList piece ++ String.ofList behind := by
    rw [← String.toList_inj, equal]
    simp
  have split := List.dropLast_concat_getLast inhabited
  have stops : behind = [] →
      error.span.stop = byteSize before + byteSize piece.dropLast + 1 :=
    fun final => atEnd final _ _ split.symm
  refine ⟨_, _, _, whole, ?_, ?_, start, ?_, ?_⟩
  · simpa using givesUp
  · simpa using earliest
  · intro condition
    rw [String.utf8ByteSize_append]
    change error.span.stop = byteSize before + byteSize piece
    by_cases final : behind = []
    · have size := congrArg byteSize split
      have narrow : (piece.getLast inhabited).utf8Size = 1 := by
        rcases condition with further | narrow
        · exact absurd (by rw [final]) further
        · exact narrow _ (by simp [List.getLast?_eq_some_getLast inhabited])
      rw [byteSize_append, byteSize_cons, byteSize_nil, narrow] at size
      rw [stops final]
      omega
    · rw [inner final, byteSize_append]
  · intro final
    have empty : behind = [] := by simpa using congrArg String.toList final
    refine ⟨String.ofList piece.dropLast, piece.getLast inhabited, ?_, ?_⟩
    · rw [← String.toList_inj]
      simp [split]
    · rw [String.utf8ByteSize_append]
      exact stops empty

/-- A wide character before a line that is given up, another one at the end of that line, and a
narrow one at the end of the text. -/
def wideWithin : String := "é 01ß\n#"

theorem lexical_error_spans_wideWithin :
    lex .strict wideWithin =
      [.ofCause (.unrecognized 'é') 0 2, .ofCause .leadingZero 3 7,
        .ofCause (.unrecognized '#') 8 9, .ofToken .eof 9 9] ∧
    (∃ before piece behind : String, wideWithin = before ++ piece ++ behind ∧
      LexicalCause.leadingZero.GivesUp before.toList piece.toList behind.toList ∧
      3 = before.utf8ByteSize ∧ (behind ≠ "" → 7 = (before ++ piece).utf8ByteSize)) ∧
    (∃ before piece behind : String, wideWithin = before ++ piece ++ behind ∧
      (LexicalCause.unrecognized '#').GivesUp before.toList piece.toList behind.toList ∧
      8 = before.utf8ByteSize ∧ 9 = (before ++ piece).utf8ByteSize) := by
  have items : lex .strict wideWithin =
      [.ofCause (.unrecognized 'é') 0 2, .ofCause .leadingZero 3 7,
        .ofCause (.unrecognized '#') 8 9, .ofToken .eof 9 9] := by decide +kernel
  have zero := lexical_error_spans .strict wideWithin ⟨.leadingZero, ⟨3, 7⟩⟩
    (by rw [items]; decide)
  have hash := lexical_error_spans .strict wideWithin ⟨.unrecognized '#', ⟨8, 9⟩⟩
    (by rw [items]; decide)
  rcases zero with ⟨before, piece, behind, whole, givesUp, _, start, stop, _⟩
  rcases hash with ⟨front, mark, back, equal, isMark, _, markStart, markStop, _⟩
  refine ⟨items, ⟨before, piece, behind, whole, givesUp, start, fun inner => stop (.inl inner)⟩,
    front, mark, back, equal, isMark, markStart, markStop (.inr ?_)⟩
  intro last member
  rw [isMark.1] at member
  cases member
  decide

/-- At the end of a text, the span of an error can end within a character. -/
theorem lexical_error_span_within_character :
    .failed ⟨.unrecognized 'é', ⟨0, 1⟩⟩ ∈ lex .strict "é" ∧
    .failed ⟨.leadingZero, ⟨0, 3⟩⟩ ∈ lex .strict "01é" ∧ "01é".utf8ByteSize = 4 ∧
    ∀ piece, ¬ Excerpt "é" ⟨0, 1⟩ piece := by
  refine ⟨by decide +kernel, by decide +kernel, by decide +kernel, ?_⟩
  rintro piece ⟨before, behind, whole, place⟩
  have size : 1 = byteSize (before ++ piece).toList := by
    rw [byteSize_toList]
    exact congrArg Span.stop place
  have chars := congrArg String.toList whole
  rw [String.toList_append] at chars
  rcases List.append_eq_singleton_iff.mp chars.symm with ⟨empty, _⟩ | ⟨all, _⟩
  · rw [empty] at size
    contradiction
  · rw [all] at size
    exact absurd size (by decide)

/-! ## Line by line -/

section Lines

variable (mode : Mode)

theorem exists_lex_eq_append_eof (text : String) :
    ∃ front span, lex mode text = front ++ [.read ⟨.eof, span⟩] := by
  rcases Cursor.exists_end_of_drain mode (Cursor.ofText text) with ⟨front, final, items, isEnd⟩
  rcases Item.exists_of_isEnd isEnd with ⟨span, rfl⟩
  exact ⟨front, span, items⟩

/-- Up to places, the items of two lines are those of the first without their end and those of
the second. -/
theorem lex_erased_append_newline (first second : String) :
    (lex mode (first ++ "\n" ++ second)).map Relocation.erase.item =
      (lex mode first).dropLast.map Relocation.erase.item ++
        (lex mode second).map Relocation.erase.item := by
  rcases lex_append_newline mode first second with ⟨front, back, items, sameFront, sameBack⟩
  rw [items, List.map_append, sameFront]
  congr 1
  rcases sameBack with rfl | ⟨rfl, span, rfl⟩
  · rw [List.map_map]
    apply List.map_congr_left
    intro item _
    cases item <;> rfl
  · rw [lex_empty]
    rfl

namespace TokenStream

theorem tokens_ofText (text : String) :
    (ofText mode text).tokens =
      ((lex mode text).map Relocation.erase.item).map (·.lexeme.token) := by
  rw [tokens, lexemes_ofText, List.map_map, List.map_map]
  apply List.map_congr_left
  intro item _
  simp

theorem causes_ofText (text : String) :
    (ofText mode text).errors.map (·.cause) =
      ((lex mode text).map Relocation.erase.item).filterMap (·.error?.map (·.cause)) := by
  rw [ofText, ofItems, List.map_filterMap, List.filterMap_map]
  congr 1
  funext item
  cases item <;> rfl

theorem tokens_append_newline (first second : String) :
    ∃ front, (ofText mode first).tokens = front ++ [.eof] ∧
      (ofText mode (first ++ "\n" ++ second)).tokens = front ++ (ofText mode second).tokens := by
  rcases exists_lex_eq_append_eof mode first with ⟨front, span, items⟩
  refine ⟨(front.map Relocation.erase.item).map (·.lexeme.token), ?_, ?_⟩
  · rw [tokens_ofText, items, List.map_append, List.map_append]
    rfl
  · rw [tokens_ofText, lex_erased_append_newline, items, List.dropLast_concat, List.map_append,
      ← tokens_ofText]

theorem causes_append_newline (first second : String) :
    (ofText mode (first ++ "\n" ++ second)).errors.map (·.cause) =
      (ofText mode first).errors.map (·.cause) ++ (ofText mode second).errors.map (·.cause) := by
  rcases exists_lex_eq_append_eof mode first with ⟨front, span, items⟩
  rw [causes_ofText, lex_erased_append_newline, List.filterMap_append, ← causes_ofText]
  congr 1
  -- The end of the first line is no error, so nothing is lost with it.
  rw [causes_ofText, items, List.dropLast_concat, List.map_append, List.filterMap_append]
  exact (List.append_nil _).symm

theorem tokens_intercalate_newline (lines : List String) :
    (ofText mode ("\n".intercalate lines)).tokens =
      lines.flatMap (fun line => (ofText mode line).tokens.dropLast) ++ [.eof] := by
  induction lines with
  | nil =>
      rw [tokens_ofText, String.intercalate_nil, lex_empty]
      rfl
  | cons line rest induction =>
      rcases tokens_append_newline mode line ("\n".intercalate rest) with ⟨front, alone, whole⟩
      rw [List.flatMap_cons, alone, List.dropLast_concat, List.append_assoc, ← induction]
      cases rest with
      | nil =>
          rw [String.intercalate_singleton, alone, induction]
          rfl
      | cons next others =>
          rw [String.intercalate_cons_cons]
          exact whole

theorem causes_intercalate_newline (lines : List String) :
    (ofText mode ("\n".intercalate lines)).errors.map (·.cause) =
      lines.flatMap fun line => (ofText mode line).errors.map (·.cause) := by
  induction lines with
  | nil =>
      rw [causes_ofText, String.intercalate_nil, lex_empty]
      rfl
  | cons line rest induction =>
      have whole := causes_append_newline mode line ("\n".intercalate rest)
      rw [List.flatMap_cons, ← induction]
      cases rest with
      | nil =>
          rw [String.intercalate_singleton, induction]
          exact (List.append_nil _).symm
      | cons next others =>
          rw [String.intercalate_cons_cons]
          exact whole

end TokenStream

/-- In a single line nothing is read behind a numeral with a leading zero. -/
theorem exists_end_of_leadingZero {line : String} (single : '\n' ∉ line.toList)
    {earlier later : List Item} {error : LexicalError}
    (items : lex mode line = earlier ++ .failed error :: later)
    (leading : error.cause = .leadingZero) : ∃ final, later = [final] ∧ final.isEnd = true := by
  rcases exists_layout_of_lex items (by simp) with ⟨front, rest, stop, equal, layout, _⟩
  rcases layout.of_cons with ⟨_, isEnd, _⟩ | ⟨gap, word, final, behind, rfl, _, entry, further⟩
  · contradiction
  cases entry with
  | unrecognized strict begins visible => contradiction
  | line digit unbroken =>
      rw [equal] at single
      simp at single
  | lastLine digit unbroken =>
      rcases further.exists_end with ⟨others, last, rfl, isEnd, _⟩
      cases others with
      | nil => exact ⟨last, rfl, isEnd⟩
      | cons item others =>
          rcases further.of_cons with ⟨empty, _⟩ | ⟨_, word, _, _, nothing, _, entry, _⟩
          · simp at empty
          · simp [entry.word_ne_nil] at nothing

end Lines

/-- The tokens of two texts with a newline between them are those of the first without their end
and those of the second, and so are the causes of the errors. So every line of a text has the
tokens and the errors that it has alone, whatever the other lines are, and a numeral with a
leading zero takes along the rest of its own line, all of it and nothing more. -/
theorem lexing_is_local_to_lines (mode : Mode) :
    (∀ first second : String,
      (∃ front, (TokenStream.ofText mode first).tokens = front ++ [.eof] ∧
        (TokenStream.ofText mode (first ++ "\n" ++ second)).tokens =
          front ++ (TokenStream.ofText mode second).tokens) ∧
      (TokenStream.ofText mode (first ++ "\n" ++ second)).errors.map (·.cause) =
        (TokenStream.ofText mode first).errors.map (·.cause) ++
          (TokenStream.ofText mode second).errors.map (·.cause)) ∧
    (∀ lines : List String,
      (TokenStream.ofText mode ("\n".intercalate lines)).tokens =
        lines.flatMap (fun line => (TokenStream.ofText mode line).tokens.dropLast) ++ [.eof] ∧
      (TokenStream.ofText mode ("\n".intercalate lines)).errors.map (·.cause) =
        lines.flatMap fun line => (TokenStream.ofText mode line).errors.map (·.cause)) ∧
    (∀ (line : String) (earlier : List Item) (error : LexicalError) (later : List Item),
      '\n' ∉ line.toList → lex mode line = earlier ++ .failed error :: later →
      error.cause = .leadingZero → ∃ final, later = [final] ∧ final.isEnd = true) := by
  refine ⟨?_, ?_, ?_⟩
  · intro first second
    exact ⟨TokenStream.tokens_append_newline mode first second,
      TokenStream.causes_append_newline mode first second⟩
  · intro lines
    exact ⟨TokenStream.tokens_intercalate_newline mode lines,
      TokenStream.causes_intercalate_newline mode lines⟩
  · intro line earlier error later single items leading
    exact exists_end_of_leadingZero mode single items leading

/-- Lines that are given up in the middle and at the end, the first of them directly before
another. -/
def linesGivenUp : List String := ["a = 1;", "b = 007 + c;", "00", "d = é"]

theorem lexing_is_local_to_lines_linesGivenUp :
    (TokenStream.ofText .strict "a = 1;\nb = 007 + c;\n00\nd = é").tokens =
      [.ident "a", .equals, .int "1", .semicolon, .ident "b", .equals, .malformed, .malformed,
        .ident "d", .equals, .malformed, .eof] ∧
    (TokenStream.ofText .strict "a = 1;\nb = 007 + c;\n00\nd = é").errors.map (·.cause) =
      [.leadingZero, .leadingZero, .unrecognized 'é'] ∧
    lex .strict "b = 007 + c;" =
      [.ofToken (.ident "b") 0 1, .ofToken .equals 2 3, .ofCause .leadingZero 4 12,
        .ofToken .eof 13 13] ∧
    ∃ final, [Item.ofToken .eof 13 13] = [final] ∧ final.isEnd = true := by
  rcases lexing_is_local_to_lines .strict with ⟨_, all, line⟩
  have items : lex .strict "b = 007 + c;" =
      [.ofToken (.ident "b") 0 1, .ofToken .equals 2 3, .ofCause .leadingZero 4 12,
        .ofToken .eof 13 13] := by decide +kernel
  have tokens : linesGivenUp.flatMap (fun line =>
      (TokenStream.ofText .strict line).tokens.dropLast) ++ [.eof] =
      [.ident "a", .equals, .int "1", .semicolon, .ident "b", .equals, .malformed, .malformed,
        .ident "d", .equals, .malformed, .eof] := by decide +kernel
  have causes : (linesGivenUp.flatMap fun line =>
      (TokenStream.ofText .strict line).errors.map (·.cause)) =
      [.leadingZero, .leadingZero, .unrecognized 'é'] := by decide +kernel
  exact ⟨(all linesGivenUp).1.trans tokens, (all linesGivenUp).2.trans causes, items,
    line "b = 007 + c;" [_, _] ⟨.leadingZero, ⟨4, 12⟩⟩ _ (by decide) items rfl⟩

end Abacus
