import Abacus.Proofs.Layout

/-! # What the items of a text stand for

Nothing of a text is lost between its items. Every token is the piece of the text that its
span covers, and it is as long as it can be. Only blanks, and what the mode passes over, stand
outside of all spans. -/

namespace Abacus

/-- The piece of a text that a span covers. Both ends of the span stand between characters. -/
def Excerpt (text : String) (span : Span) (piece : String) : Prop :=
  ∃ before behind, text = before ++ piece ++ behind ∧
    span = ⟨before.utf8ByteSize, (before ++ piece).utf8ByteSize⟩

/-- Only characters that the mode passes over stand between two offsets. -/
def PassedOver (mode : Mode) (text : String) (start stop : Nat) : Prop :=
  ∃ gap, Excerpt text ⟨start, stop⟩ gap ∧ ∀ char ∈ gap.toList, mode.skips char = true

theorem excerpt_of_toList {text : String} {before piece behind : List Char}
    (equal : text.toList = before ++ piece ++ behind) :
    Excerpt text ⟨byteSize before, byteSize (before ++ piece)⟩ (String.ofList piece) := by
  refine ⟨String.ofList before, String.ofList behind, ?_, ?_⟩
  · rw [← String.toList_inj, equal]
    simp
  · rw [← String.ofList_append]
    rfl

theorem passedOver_of_toList {mode : Mode} {text : String} {before gap behind : List Char}
    (equal : text.toList = before ++ gap ++ behind)
    (skips : ∀ char ∈ gap, mode.skips char = true) :
    PassedOver mode text (byteSize before) (byteSize (before ++ gap)) :=
  ⟨String.ofList gap, excerpt_of_toList equal, by simpa using skips⟩

def Item.span : Item → Span
  | read lexeme => lexeme.span
  | failed error => error.span

/-- The first span covers something, and the second starts behind all of it. -/
def Span.Before (first second : Span) : Prop :=
  first.start < first.stop ∧ first.stop ≤ second.start

/-! ## One item -/

namespace Entry

variable {mode : Mode} {offset stop behind : Nat} {word rest : List Char} {item : Item}

theorem start_span (entry : Entry mode offset stop word rest item behind) :
    item.span.start = offset := by
  cases entry <;> rfl

theorem of_read {lexeme : Lexeme}
    (entry : Entry mode offset stop word rest (.read lexeme) behind) :
    word = lexeme.token.text.toList ∧ lexeme.span = ⟨offset, offset + byteSize word⟩ ∧
      lexeme.token.isSpelled = true ∧
      ∀ char ∈ rest.head?, lexeme.token.endsBefore char = true := by
  cases entry with
  | token spelled ends => exact ⟨rfl, by rw [byteSize_toList], spelled, ends⟩

/-- A token is read in the same way before less of the text. -/
theorem read_congr {lexeme : Lexeme}
    (entry : Entry mode offset stop word rest (.read lexeme) behind) {fewer : List Char}
    (heads : ∀ char ∈ fewer.head?, char ∈ rest.head?) (final : Nat) :
    Entry mode offset final word fewer (.read lexeme) final := by
  cases entry with
  | token spelled ends => exact .token spelled fun char member => ends char (heads char member)

/-- What an item does not cover of its characters is passed over. An error at the end of the
source may cover less, since the end does not stand behind its last character. -/
theorem exists_covered (entry : Entry mode offset stop word rest item behind)
    (inner : rest ≠ [] ∨ ∃ lexeme, item = .read lexeme) :
    ∃ covered trail, word = covered ++ trail ∧ item.span.stop = offset + byteSize covered ∧
      ∀ char ∈ trail, mode.skips char = true := by
  cases entry with
  | token spelled ends =>
      refine ⟨_, [], (List.append_nil _).symm, ?_, by simp⟩
      rw [byteSize_toList]
      rfl
  | unrecognized strict begins visible =>
      rename_i char
      have further : rest ≠ [] := by
        rcases inner with further | ⟨_, equal⟩
        · exact further
        · contradiction
      refine ⟨[char], [], rfl, ?_, by simp⟩
      simp [Item.ofCause, Item.span, further]
  | line digit unbroken =>
      refine ⟨_, ['\n'], rfl, rfl, fun char member => ?_⟩
      rw [List.mem_singleton.mp member]
      cases mode <;> rfl
  | lastLine digit unbroken =>
      rcases inner with further | ⟨_, equal⟩
      · contradiction
      · contradiction

theorem stop_span_le (entry : Entry mode offset stop word rest item behind)
    (endsAt : EndsAt stop offset (word ++ rest)) : item.span.stop ≤ behind := by
  cases entry with
  | token spelled ends =>
      rename_i token
      change offset + token.text.utf8ByteSize ≤ stop
      by_cases final : rest = []
      · subst final
        rw [List.append_nil] at endsAt
        exact Nat.le_of_eq (endsAt.eq_of_isSpelled spelled).symm
      · have before := endsAt.of_append.lt_of_ne_nil final
        rw [byteSize_toList] at before
        exact Nat.le_of_lt before
  | unrecognized strict begins visible =>
      simp only [Item.ofCause, Item.span]
      split
      · exact Nat.le_refl stop
      · next further =>
          have before := endsAt.of_append.lt_of_ne_nil further
          rw [byteSize_cons, byteSize_nil, Nat.add_zero] at before
          exact Nat.le_of_lt before
  | line digit unbroken =>
      rw [List.append_assoc] at endsAt
      exact Nat.le_of_lt (endsAt.of_append.lt_of_ne_nil (by simp))
  | lastLine digit unbroken => exact Nat.le_succ stop

/-- The end of the source only moves on. -/
theorem le_behind (entry : Entry mode offset stop word rest item behind) : stop ≤ behind := by
  cases entry with
  | lastLine digit unbroken => exact Nat.le_succ stop
  | _ => exact Nat.le_refl stop

/-- An item covers something, and nothing but its own characters. -/
theorem stop_span_bounds (entry : Entry mode offset stop word rest item behind)
    (endsAt : EndsAt stop offset (word ++ rest)) :
    offset < item.span.stop ∧ item.span.stop ≤ offset + byteSize word := by
  have inhabited := entry.word_ne_nil
  have positive := byteSize_pos inhabited
  cases entry with
  | token spelled ends =>
      rw [byteSize_toList] at positive ⊢
      exact ⟨Nat.lt_add_of_pos_right positive, Nat.le_refl _⟩
  | unrecognized strict begins visible =>
      simp only [Item.ofCause, Item.span]
      split
      · next final =>
          rw [final, List.append_nil] at endsAt
          exact ⟨endsAt.lt_of_ne_nil inhabited, endsAt.le_of_ne_nil inhabited⟩
      · rw [byteSize_cons, byteSize_nil, Nat.add_zero] at positive ⊢
        exact ⟨Nat.lt_add_of_pos_right positive, Nat.le_refl _⟩
  | line digit unbroken =>
      rename_i second line
      have covered := byteSize_pos (List.cons_ne_nil '0' (second :: line))
      simp only [Item.ofCause, Item.span, byteSize_append]
      omega
  | lastLine digit unbroken =>
      rw [List.append_nil] at endsAt
      exact ⟨endsAt.lt_of_ne_nil inhabited, endsAt.le_of_ne_nil inhabited⟩

end Entry

/-! ## All items -/

namespace Layout

variable {mode : Mode} {offset stop : Nat} {chars : List Char}

/-- The first item is the end, or it stands behind a gap. -/
theorem of_cons {item : Item} {items : List Item}
    (layout : Layout mode offset stop chars (item :: items)) :
    (items = [] ∧ item = .ofToken .eof stop stop ∧ ∀ char ∈ chars, mode.skips char = true) ∨
    ∃ gap word rest behind, chars = gap ++ (word ++ rest) ∧
      (∀ char ∈ gap, mode.skips char = true) ∧
      Entry mode (offset + byteSize gap) stop word rest item behind ∧
      Layout mode (offset + byteSize gap + byteSize word) behind rest items := by
  cases layout with
  | ended skips => exact .inl ⟨rfl, rfl, skips⟩
  | item skips entry further => exact .inr ⟨_, _, _, _, rfl, skips, entry, further⟩

theorem exists_end {items : List Item} (layout : Layout mode offset stop chars items) :
    ∃ front final, items = front ++ [final] ∧ final.isEnd = true ∧
      ∀ item ∈ front, item.isEnd = false := by
  induction layout with
  | ended skips => exact ⟨[], _, rfl, rfl, fun _ member => nomatch member⟩
  | item skips entry further induction =>
      rename_i item items
      rcases induction with ⟨front, final, rfl, isEnd, notEnd⟩
      refine ⟨item :: front, final, rfl, isEnd, fun other member => ?_⟩
      rcases List.mem_cons.mp member with rfl | member
      · exact entry.isEnd_eq_false
      · exact notEnd other member

/-- How the characters before some others are divided into items. -/
inductive Front (mode : Mode) : List Char → List Char → Prop
  | gap {gap rest : List Char} (skips : ∀ char ∈ gap, mode.skips char = true) :
      Front mode gap rest
  | item {offset stop behind : Nat} {gap word front rest : List Char} {item : Item}
      (skips : ∀ char ∈ gap, mode.skips char = true)
      (entry : Entry mode offset stop word (front ++ rest) item behind)
      (further : Front mode front rest) : Front mode (gap ++ (word ++ front)) rest

/-- Behind some of the items, the others are laid out in the characters that are left. -/
theorem drop {earlier later : List Item}
    (layout : Layout mode offset stop chars (earlier ++ later)) (inhabited : later ≠ [])
    (endsAt : EndsAt stop offset chars) :
    ∃ front rest behind, chars = front ++ rest ∧
      Layout mode (offset + byteSize front) behind rest later ∧
      EndsAt behind (offset + byteSize front) rest ∧ Front mode front rest := by
  induction earlier generalizing offset stop chars with
  | nil => exact ⟨[], chars, stop, rfl, layout, endsAt, .gap (by simp)⟩
  | cons item earlier induction =>
      rcases of_cons layout with
        ⟨empty, _⟩ | ⟨gap, word, rest, behind, rfl, skips, entry, further⟩
      · exact absurd (List.append_eq_nil_iff.mp empty).2 inhabited
      · rcases induction further (entry.endsAt endsAt.of_append) with
          ⟨front, final, stopBehind, rfl, layoutBehind, endsBehind, reached⟩
        refine ⟨gap ++ (word ++ front), final, stopBehind, by simp, ?_, ?_, ?_⟩
        · simpa [Nat.add_assoc] using layoutBehind
        · simpa [Nat.add_assoc] using endsBehind
        · exact .item skips entry reached

/-- Two items that follow each other do not overlap, and what stands between them is passed
over. -/
theorem of_cons_cons {previous next : Item} {later : List Item}
    (layout : Layout mode offset stop chars (previous :: next :: later))
    (endsAt : EndsAt stop offset chars) :
    previous.span.stop ≤ next.span.start ∧
    (next.isEnd = false → ∃ front gap rest, chars = front ++ gap ++ rest ∧
      previous.span.stop = offset + byteSize front ∧
      next.span.start = offset + byteSize (front ++ gap) ∧
      ∀ char ∈ gap, mode.skips char = true) := by
  rcases of_cons layout with ⟨empty, _⟩ | ⟨gap, word, rest, behind, rfl, _, entry, further⟩
  · contradiction
  rcases of_cons further with
    ⟨_, rfl, _⟩ | ⟨nextGap, nextWord, final, stopBehind, rfl, nextSkips, nextEntry, _⟩
  · refine ⟨entry.stop_span_le endsAt.of_append, ?_⟩
    intro notEnd
    contradiction
  · have inner : nextGap ++ (nextWord ++ final) ≠ [] := by
      simp [nextEntry.word_ne_nil]
    rcases entry.exists_covered (.inl inner) with ⟨covered, trail, rfl, stopEqual, trailSkips⟩
    rw [nextEntry.start_span, stopEqual]
    constructor
    · simp only [byteSize_append]
      omega
    · intro _
      refine ⟨gap ++ covered, trail ++ nextGap, nextWord ++ final, by simp, ?_, ?_, ?_⟩
      · rw [byteSize_append, Nat.add_assoc]
      · simp only [byteSize_append]
        omega
      · intro char member
        rcases List.mem_append.mp member with member | member
        · exact trailSkips char member
        · exact nextSkips char member

/-- What stands before the characters and before their end stands before all items. -/
theorem le_start_span {items : List Item} (layout : Layout mode offset stop chars items)
    {reached : Nat} (beforeChars : reached ≤ offset) (beforeEnd : reached ≤ stop) :
    ∀ item ∈ items, reached ≤ item.span.start := by
  induction layout with
  | ended skips =>
      intro item member
      rw [List.mem_singleton.mp member]
      exact beforeEnd
  | item skips entry further induction =>
      intro other member
      rcases List.mem_cons.mp member with rfl | member
      · rw [entry.start_span]
        omega
      · exact induction (by omega) (Nat.le_trans beforeEnd entry.le_behind) other member

/-- Every item stands before all that follow it. -/
theorem pairwise_before {items : List Item} (layout : Layout mode offset stop chars items)
    (endsAt : EndsAt stop offset chars) :
    items.Pairwise fun first second => first.span.Before second.span := by
  induction layout with
  | ended skips => exact List.pairwise_singleton _ _
  | item skips entry further induction =>
      apply List.Pairwise.cons
      · intro later member
        have bounds := entry.stop_span_bounds endsAt.of_append
        have behind := entry.stop_span_le endsAt.of_append
        constructor
        · rw [entry.start_span]
          exact bounds.1
        · exact further.le_start_span bounds.2 behind later member
      · exact induction (entry.endsAt endsAt.of_append)

end Layout

/-! ## Texts -/

section Texts

variable {mode : Mode} {text : String}

/-- Behind some of the items of a text, the others are laid out in what is left of it. -/
theorem exists_layout_of_lex {earlier later : List Item} (items : lex mode text = earlier ++ later)
    (inhabited : later ≠ []) :
    ∃ front rest behind, text.toList = front ++ rest ∧
      Layout mode (byteSize front) behind rest later ∧ EndsAt behind (byteSize front) rest ∧
      Layout.Front mode front rest := by
  have layout := Layout.of_text mode text
  rw [items] at layout
  have dropped := layout.drop inhabited (.ofText text)
  simpa using dropped

theorem pairwise_before_lex (mode : Mode) (text : String) :
    (lex mode text).Pairwise fun first second => first.span.Before second.span :=
  (Layout.of_text mode text).pairwise_before (.ofText text)

theorem excerpt_of_read_mem_lex {lexeme : Lexeme} (member : .read lexeme ∈ lex mode text)
    (notEnd : lexeme.token ≠ .eof) :
    lexeme.span.start < lexeme.span.stop ∧ lexeme.span.stop ≤ text.utf8ByteSize ∧
    lexeme.token.isSpelled = true ∧
    ∃ before behind, text = before ++ lexeme.token.text ++ behind ∧
      lexeme.span = ⟨before.utf8ByteSize, (before ++ lexeme.token.text).utf8ByteSize⟩ ∧
      ∀ char ∈ behind.toList.head?, lexeme.token.endsBefore char = true := by
  rcases List.append_of_mem member with ⟨earlier, later, items⟩
  rcases exists_layout_of_lex items (by simp) with ⟨front, rest, stop, equal, layout, _⟩
  rcases layout.of_cons with ⟨_, isEnd, _⟩ | ⟨gap, word, final, behind, rfl, _, entry, _⟩
  · cases isEnd
    contradiction
  · rcases entry.of_read with ⟨rfl, place, spelled, ends⟩
    have whole : text =
        String.ofList (front ++ gap) ++ lexeme.token.text ++ String.ofList final := by
      rw [← String.toList_inj, equal]
      simp
    have size := congrArg byteSize equal
    have positive := byteSize_pos entry.word_ne_nil
    simp only [byteSize_append, byteSize_toList] at size positive place
    rw [place]
    refine ⟨by simp only; omega, by simp only; omega, spelled, _, _, whole, ?_, ?_⟩
    · rw [String.utf8ByteSize_append]
      change _ = Span.mk (byteSize (front ++ gap)) (byteSize (front ++ gap) + _)
      rw [byteSize_append]
    · rw [String.toList_ofList]
      exact ends

theorem stop_span_le_of_lex {earlier later : List Item} {previous next : Item}
    (items : lex mode text = earlier ++ previous :: next :: later) :
    previous.span.stop ≤ next.span.start ∧
    (next.isEnd = false → PassedOver mode text previous.span.stop next.span.start) := by
  rcases exists_layout_of_lex items (by simp) with ⟨front, rest, stop, equal, layout, endsAt, _⟩
  rcases layout.of_cons_cons endsAt with ⟨ordered, between⟩
  refine ⟨ordered, fun notEnd => ?_⟩
  rcases between notEnd with ⟨covered, gap, final, rfl, stopEqual, startEqual, skips⟩
  have whole : text.toList = front ++ covered ++ gap ++ final := by
    rw [equal]
    simp
  rw [stopEqual, startEqual, ← byteSize_append, ← byteSize_append, ← List.append_assoc]
  exact passedOver_of_toList whole skips

theorem passedOver_before_first {first : Item} {later : List Item}
    (items : lex mode text = first :: later) (notEnd : first.isEnd = false) :
    PassedOver mode text 0 first.span.start := by
  have layout := Layout.of_text mode text
  rw [items] at layout
  rcases layout.of_cons with ⟨_, rfl, _⟩ | ⟨gap, word, rest, behind, equal, skips, entry, _⟩
  · contradiction
  · rw [entry.start_span, Nat.zero_add]
    have whole : text.toList = [] ++ gap ++ (word ++ rest) := equal
    exact passedOver_of_toList whole skips

theorem passedOver_all {final : Item} (items : lex mode text = [final]) :
    PassedOver mode text 0 text.utf8ByteSize := by
  have layout := Layout.of_text mode text
  rw [items] at layout
  rcases layout.of_cons with ⟨_, _, skips⟩ | ⟨_, _, _, _, _, _, _, none⟩
  · have whole : text.toList = [] ++ text.toList ++ [] := (List.append_nil _).symm
    rw [← byteSize_toList]
    exact passedOver_of_toList whole skips
  · nomatch none

theorem passedOver_behind_last {earlier : List Item} {lexeme : Lexeme} {final : Item}
    (items : lex mode text = earlier ++ [.read lexeme, final]) :
    PassedOver mode text lexeme.span.stop text.utf8ByteSize := by
  rcases exists_layout_of_lex items (by simp) with ⟨front, rest, stop, equal, layout, _⟩
  rcases layout.of_cons with ⟨empty, _⟩ | ⟨gap, word, last, behind, rfl, _, entry, further⟩
  · contradiction
  rcases further.of_cons with ⟨_, _, skips⟩ | ⟨_, _, _, _, _, _, _, none⟩
  · have whole : text.toList = front ++ gap ++ word ++ last ++ [] := by
      rw [equal]
      simp
    have size := congrArg byteSize whole
    rw [List.append_nil, byteSize_toList] at size
    rw [entry.of_read.2.1, size, ← byteSize_append, ← byteSize_append]
    exact passedOver_of_toList whole skips
  · nomatch none

end Texts

/-- Lexing loses nothing and takes the longest tokens. The items end with the end of the text
and only there. A token covers its own text, which has the right form and does not go on
behind it. Items stand one behind the other. Before the first of them, between two of them and
behind the last, if that is a token, there is only what the mode passes over. -/
theorem lex_covers_text (mode : Mode) (text : String) :
    (∃ front final, lex mode text = front ++ [final] ∧ final.isEnd = true ∧
      ∀ item ∈ front, item.isEnd = false) ∧
    (∀ lexeme, .read lexeme ∈ lex mode text → lexeme.token ≠ .eof →
      lexeme.span.start < lexeme.span.stop ∧ lexeme.span.stop ≤ text.utf8ByteSize ∧
      lexeme.token.isSpelled = true ∧
      ∃ before behind, text = before ++ lexeme.token.text ++ behind ∧
        lexeme.span = ⟨before.utf8ByteSize, (before ++ lexeme.token.text).utf8ByteSize⟩ ∧
        ∀ char ∈ behind.toList.head?, lexeme.token.endsBefore char = true) ∧
    (∀ earlier previous next later, lex mode text = earlier ++ previous :: next :: later →
      previous.span.stop ≤ next.span.start ∧
      (next.isEnd = false → PassedOver mode text previous.span.stop next.span.start)) ∧
    (∀ first later, lex mode text = first :: later → first.isEnd = false →
      PassedOver mode text 0 first.span.start) ∧
    (∀ final, lex mode text = [final] → PassedOver mode text 0 text.utf8ByteSize) ∧
    (∀ earlier lexeme final, lex mode text = earlier ++ [.read lexeme, final] →
      PassedOver mode text lexeme.span.stop text.utf8ByteSize) := by
  refine ⟨?_, ?_, ?_, ?_, ?_, ?_⟩
  · exact (Layout.of_text mode text).exists_end
  · intro lexeme member notEnd
    exact excerpt_of_read_mem_lex member notEnd
  · intro earlier previous next later items
    exact stop_span_le_of_lex items
  · intro first later items notEnd
    exact passedOver_before_first items notEnd
  · intro final items
    exact passedOver_all items
  · intro earlier lexeme final items
    exact passedOver_behind_last items

/-- Characters of two bytes before the first item, within a line that is given up and behind
the last item. -/
def wideNeighbours : String := "éx1 = 01é\n;ß"

theorem lex_covers_text_wideNeighbours :
    lex .permissive wideNeighbours =
      [.ofToken (.ident "x1") 2 4, .ofToken .equals 5 6, .ofCause .leadingZero 7 11,
        .ofToken .semicolon 12 13, .ofToken .eof 14 14] ∧
    (∃ before behind, wideNeighbours = before ++ "x1" ++ behind ∧
      Span.mk 2 4 = ⟨before.utf8ByteSize, (before ++ "x1").utf8ByteSize⟩ ∧
      ∀ char ∈ behind.toList.head?, isNamePart char = false) ∧
    PassedOver .permissive wideNeighbours 0 2 ∧ PassedOver .permissive wideNeighbours 11 12 ∧
    PassedOver .permissive wideNeighbours 13 15 := by
  rcases lex_covers_text .permissive wideNeighbours with ⟨_, tokens, between, first, _, last⟩
  have items : lex .permissive wideNeighbours =
      [.ofToken (.ident "x1") 2 4, .ofToken .equals 5 6, .ofCause .leadingZero 7 11,
        .ofToken .semicolon 12 13, .ofToken .eof 14 14] := by decide +kernel
  have member : .read ⟨.ident "x1", ⟨2, 4⟩⟩ ∈ lex .permissive wideNeighbours := by
    rw [items]
    exact List.mem_cons_self
  rcases tokens _ member (by decide) with ⟨_, _, _, before, behind, text, place, ends⟩
  refine ⟨items, ⟨before, behind, text, place, fun char found => ?_⟩, first _ _ items rfl, ?_,
    last [_, _, _] _ _ items⟩
  · simpa [Token.endsBefore] using ends char found
  · exact (between [_, _] _ _ _ items).2 rfl

end Abacus
