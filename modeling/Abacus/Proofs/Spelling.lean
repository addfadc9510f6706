import Abacus.Proofs.Lexing

/-! # Spellings

Which characters spell which tokens. A spelling is a row of token texts with blanks
anywhere between them, where no text could go on into what follows it. Lexing a
spelling gives its tokens, and every token that lexing gives has a text of the right
form. -/

namespace Abacus

/-! ## Classes of characters -/

theorem isNameStart_iff {char : Char} : isNameStart char = true ↔
    65 ≤ char.toNat ∧ char.toNat ≤ 90 ∨ 97 ≤ char.toNat ∧ char.toNat ≤ 122 ∨
      char.toNat = 95 := by
  have underscore : char = '_' ↔ char.toNat = 95 := Char.toNat_inj.symm
  have letter : char.isAlpha =
      (decide ('A'.val ≤ char.val ∧ char.val ≤ 'Z'.val) ||
        decide ('a'.val ≤ char.val) && decide (char.val ≤ 'z'.val)) := rfl
  simp only [isNameStart, letter, Bool.or_eq_true, Bool.and_eq_true, decide_eq_true_eq,
    beq_iff_eq, underscore, UInt32.le_iff_toNat_le, or_assoc]
  rfl

theorem isNamePart_iff {char : Char} :
    isNamePart char = true ↔ isNameStart char = true ∨ char.isDigit = true := by
  simp only [isNamePart, isNameStart, Char.isAlphanum, Bool.or_eq_true]
  constructor <;> intro part <;> rcases part with (part | part) | part <;> simp [part]

theorem not_isNameStart_of_isDigit {char : Char} (digit : char.isDigit = true) :
    isNameStart char = false := by
  rw [Char.isDigit_iff_toNat] at digit
  change 48 ≤ char.toNat ∧ char.toNat ≤ 57 at digit
  rw [← Bool.not_eq_true, isNameStart_iff]
  omega

theorem not_isNamePart_of_isWhiteSpace {char : Char} (white : Text.isWhiteSpace char = true) :
    isNamePart char = false := by
  rw [← Bool.not_eq_true, isNamePart_iff, isNameStart_iff, Char.isDigit_iff_toNat]
  change ¬ (_ ∨ 48 ≤ char.toNat ∧ char.toNat ≤ 57)
  simp only [Text.isWhiteSpace, Text.Ranges.contains, Text.whiteSpace, List.any_cons,
    List.any_nil, Bool.or_eq_true, Bool.and_eq_true, decide_eq_true_eq, Bool.or_false] at white
  omega

theorem symbol?_eq_none_of_isNamePart {char : Char} (part : isNamePart char = true) :
    symbol? char = none := by
  unfold symbol?
  split <;> first | rfl | exact absurd part (by decide)

theorem symbol?_eq_none_of_isWhiteSpace {char : Char} (white : Text.isWhiteSpace char = true) :
    symbol? char = none := by
  unfold symbol?
  split <;> first | rfl | exact absurd white (by decide)

namespace CharClass

theorem of_symbol {char : Char} {token : Token} (symbol : symbol? char = some token) :
    of char = .symbol token := by
  rw [of, symbol]

theorem of_nameStart {char : Char} (start : isNameStart char = true) : of char = .name := by
  rw [of, symbol?_eq_none_of_isNamePart (isNamePart_iff.mpr (.inl start))]
  exact if_pos start

theorem of_digit {char : Char} (digit : char.isDigit = true) : of char = .digit := by
  rw [of, symbol?_eq_none_of_isNamePart (isNamePart_iff.mpr (.inr digit))]
  simp [not_isNameStart_of_isDigit digit, digit]

theorem of_whiteSpace {char : Char} (white : Text.isWhiteSpace char = true) :
    of char = .blank := by
  have noName := not_isNamePart_of_isWhiteSpace white
  rw [← Bool.not_eq_true, isNamePart_iff, not_or] at noName
  rw [of, symbol?_eq_none_of_isWhiteSpace white]
  simp [noName, white]

theorem symbol?_of {char : Char} {token : Token} (charClass : of char = .symbol token) :
    symbol? char = some token := by
  unfold of at charClass
  split at charClass
  · next equal => rw [equal, CharClass.symbol.inj charClass]
  · split at charClass
    · contradiction
    · split at charClass
      · contradiction
      · split at charClass <;> contradiction

theorem isNameStart_of {char : Char} (charClass : of char = .name) :
    isNameStart char = true := by
  unfold of at charClass
  split at charClass
  · contradiction
  · split at charClass
    · assumption
    · split at charClass
      · contradiction
      · split at charClass <;> contradiction

theorem isDigit_of {char : Char} (charClass : of char = .digit) : char.isDigit = true := by
  unfold of at charClass
  split at charClass
  · contradiction
  · split at charClass
    · contradiction
    · split at charClass
      · assumption
      · split at charClass <;> contradiction

end CharClass

/-! ## Texts of tokens -/

def isName (name : String) : Bool :=
  match name.toList with
  | [] => false
  | first :: rest => isNameStart first && rest.all isNamePart

/-- `0`, or digits that do not start with it. -/
def isNumeral (digits : String) : Bool :=
  match digits.toList with
  | [] => false
  | first :: rest => first.isDigit && rest.all Char.isDigit && (first != '0' || rest.isEmpty)

theorem isNamePart_of_isName {name : String} (isName : isName name = true) :
    ∀ char ∈ name.toList, isNamePart char = true := by
  unfold Abacus.isName at isName
  split at isName
  · contradiction
  · next first rest equal =>
      rw [Bool.and_eq_true, List.all_eq_true] at isName
      intro char member
      rw [equal] at member
      rcases List.mem_cons.mp member with rfl | member
      · exact isNamePart_iff.mpr (.inl isName.1)
      · exact isName.2 char member

theorem isDigit_of_isNumeral {digits : String} (isNumeral : isNumeral digits = true) :
    ∀ char ∈ digits.toList, char.isDigit = true := by
  unfold Abacus.isNumeral at isNumeral
  split at isNumeral
  · contradiction
  · next first rest equal =>
      rw [Bool.and_eq_true, Bool.and_eq_true, List.all_eq_true] at isNumeral
      intro char member
      rw [equal] at member
      rcases List.mem_cons.mp member with rfl | member
      · exact isNumeral.1.1
      · exact isNumeral.1.2 char member

theorem exists_head_of_toDigits {number : Nat} (positive : 0 < number) :
    ∃ first rest, Nat.toDigits 10 number = first :: rest ∧ first ≠ '0' := by
  induction number using Nat.strongRecOn with
  | ind number induction =>
      by_cases small : number < 10
      · refine ⟨number.digitChar, [], Nat.toDigits_of_lt_base small, ?_⟩
        rw [ne_eq, Nat.digitChar_eq_zero]
        omega
      · rcases induction (number / 10) (by omega) (by omega) with ⟨first, rest, equal, nonzero⟩
        rw [Nat.toDigits_of_base_le (by decide) (by omega), equal]
        exact ⟨first, _, rfl, nonzero⟩

theorem isNumeral_naturalText (number : Nat) : isNumeral (Text.naturalText number) = true := by
  by_cases zero : number = 0
  · subst zero
    rfl
  · rcases exists_head_of_toDigits (Nat.pos_of_ne_zero zero) with ⟨first, rest, equal, nonzero⟩
    have digits : ∀ char ∈ first :: rest, char.isDigit = true := by
      intro char member
      rw [← equal, ← Text.toList_naturalText] at member
      exact Text.isDigit_of_mem_naturalText member
    rw [isNumeral, Text.toList_naturalText, equal]
    simp only [Bool.and_eq_true, List.all_eq_true]
    refine ⟨⟨digits first List.mem_cons_self, ?_⟩, by simp [nonzero]⟩
    exact fun char member => digits char (List.mem_cons_of_mem first member)

namespace Token

/-- The tokens that have a text in a source, with a text of the right form. -/
def isSpelled : Token → Bool
  | int digits => isNumeral digits
  | ident name => isName name
  | malformed => false
  | eof => false
  | _ => true

/-- Whether the text of a token does not go on with a character that follows it. -/
def endsBefore : Token → Char → Bool
  | int _, char => !char.isDigit
  | ident _, char => !isNamePart char
  | _, _ => true

end Token

inductive Spells : List Token → List Char → Prop
  | nil : Spells [] []
  | blank (white : Text.isWhiteSpace char = true) (rest : Spells tokens chars) :
      Spells tokens (char :: chars)
  | token (spelled : token.isSpelled = true)
      (ends : ∀ char ∈ chars.head?, token.endsBefore char = true)
      (rest : Spells tokens chars) : Spells (token :: tokens) (token.text.toList ++ chars)

/-! ## Lexing a spelling

Where the cells stand does not matter here, only which characters they hold. -/

namespace Cursor

def Holds (cells : List Cell) (chars : List Char) : Prop :=
  cells.map (·.char) = chars.map some

theorem holds_cons {cell : Cell} {cells : List Cell} {char : Char} {chars : List Char} :
    Holds (cell :: cells) (char :: chars) ↔ cell.char = some char ∧ Holds cells chars := by
  simp [Holds]

theorem exists_of_holds_cons {cells : List Cell} {char : Char} {chars : List Char}
    (holds : Holds cells (char :: chars)) :
    ∃ start rest, cells = ⟨start, some char⟩ :: rest ∧ Holds rest chars := by
  match cells with
  | [] => simp [Holds] at holds
  | ⟨start, read⟩ :: rest =>
      rw [holds_cons] at holds
      exact ⟨start, rest, by rw [← holds.1], holds.2⟩

theorem exists_of_holds_append {cells : List Cell} {word rest : List Char}
    (holds : Holds cells (word ++ rest)) :
    ∃ front back, cells = front ++ back ∧ Holds front word ∧ Holds back rest := by
  rw [Holds, List.map_append] at holds
  exact List.map_eq_append_iff.mp holds

section Runs

variable {property : Char → Bool}

theorem satisfies_of_holds {cells : List Cell} {word : List Char} (holds : Holds cells word)
    (inside : ∀ char ∈ word, property char = true) :
    ∀ cell ∈ cells, cell.satisfies property = true := by
  intro cell member
  have read : cell.char ∈ word.map some := holds ▸ List.mem_map_of_mem member
  rcases List.mem_map.mp read with ⟨char, charMember, equal⟩
  rw [Cell.satisfies, ← equal]
  exact inside char charMember

theorem head_satisfies_of_holds {cells : List Cell} {rest : List Char} (holds : Holds cells rest)
    (boundary : ∀ char ∈ rest.head?, property char = false) :
    ∀ cell ∈ cells.head?, cell.satisfies property = false := by
  intro cell member
  match cells, rest with
  | [], _ => contradiction
  | _ :: _, [] => simp [Holds] at holds
  | first :: cells, char :: rest =>
      have same : first = cell := Option.some.inj member
      rw [holds_cons, same] at holds
      rw [Cell.satisfies, holds.1]
      exact boundary char rfl

/-- A run takes a word whose characters all have the property, and stops behind it. -/
theorem run_skipRun_of_holds {cells : List Cell} {word rest : List Char}
    (holds : Holds cells (word ++ rest)) (inside : ∀ char ∈ word, property char = true)
    (boundary : ∀ char ∈ rest.head?, property char = false) (stop : Nat) :
    run property ⟨cells, stop⟩ = String.ofList word ∧
      ∃ behind, skipRun property ⟨cells, stop⟩ = ⟨behind, stop⟩ ∧ Holds behind rest := by
  rcases exists_of_holds_append holds with ⟨front, back, rfl, frontHolds, backHolds⟩
  have frontInside := satisfies_of_holds frontHolds inside
  have backBoundary := head_satisfies_of_holds backHolds boundary
  have taken : back.takeWhile (·.satisfies property) = [] := by
    cases back with
    | nil => rfl
    | cons cell back => exact List.takeWhile_cons_of_neg (by simp [backBoundary cell rfl])
  have dropped : back.dropWhile (·.satisfies property) = back := by
    cases back with
    | nil => rfl
    | cons cell back => exact List.dropWhile_cons_of_neg (by simp [backBoundary cell rfl])
  constructor
  · have read : front.filterMap (·.char) = word := by
      have mapped : front.filterMap (·.char) = (front.map (·.char)).filterMap id := by
        rw [List.filterMap_map]
        rfl
      rw [mapped, frontHolds]
      simp
    rw [run, List.takeWhile_append_of_pos frontInside, taken, List.append_nil, read]
  · refine ⟨back, ?_, backHolds⟩
    rw [skipRun, List.dropWhile_append_of_pos frontInside, dropped]

end Runs

/-! ### One token -/

variable {mode : Mode} {stop : Nat} {cells : List Cell} {rest : List Char}

/-- The next item is a token, and the given characters follow it. -/
def Reads (mode : Mode) (stop : Nat) (cells : List Cell) (token : Token) (rest : List Char) :
    Prop :=
  ∃ span behind, scanCells mode stop cells = (.read ⟨token, span⟩, ⟨behind, stop⟩) ∧
    Holds behind rest

theorem reads_symbol {char : Char} {token : Token} (symbol : symbol? char = some token)
    (holds : Holds cells (char :: rest)) : Reads mode stop cells token rest := by
  rcases exists_of_holds_cons holds with ⟨start, behind, rfl, behindHolds⟩
  simp only [Reads, scanCells, CharClass.of_symbol symbol]
  exact ⟨_, behind, rfl, behindHolds⟩

theorem reads_ident {name : String} (isName : isName name = true)
    (ends : ∀ char ∈ rest.head?, isNamePart char = false)
    (holds : Holds cells (name.toList ++ rest)) : Reads mode stop cells (.ident name) rest := by
  unfold Abacus.isName at isName
  split at isName
  · contradiction
  · next first word equal =>
      rw [Bool.and_eq_true, List.all_eq_true] at isName
      rw [equal] at holds
      rcases exists_of_holds_cons holds with ⟨start, behind, rfl, behindHolds⟩
      rcases run_skipRun_of_holds behindHolds isName.2 ends stop with
        ⟨run, final, skipped, finalHolds⟩
      have same : first.toString ++ String.ofList word = name := by
        rw [← String.toList_inj, equal]
        simp
      simp only [Reads, scanCells, CharClass.of_nameStart isName.1, run, skipped, same]
      exact ⟨_, final, rfl, finalHolds⟩

theorem reads_int {digits : String} (isNumeral : isNumeral digits = true)
    (ends : ∀ char ∈ rest.head?, char.isDigit = false)
    (holds : Holds cells (digits.toList ++ rest)) :
    Reads mode stop cells (.int digits) rest := by
  unfold Abacus.isNumeral at isNumeral
  split at isNumeral
  · contradiction
  · next first word equal =>
      rw [Bool.and_eq_true, Bool.and_eq_true, List.all_eq_true] at isNumeral
      rcases isNumeral with ⟨⟨first_isDigit, word_isDigit⟩, shape⟩
      rw [equal] at holds
      rcases exists_of_holds_cons holds with ⟨start, behind, rfl, behindHolds⟩
      have same : first.toString ++ String.ofList word = digits := by
        rw [← String.toList_inj, equal]
        simp
      simp only [Reads, scanCells, CharClass.of_digit first_isDigit, scanNumber]
      by_cases zero : first = '0'
      · have single : word = [] := by simpa [zero] using shape
        subst zero single
        have notDigit : startsWith ⟨behind, stop⟩ Char.isDigit = false := by
          have boundary := head_satisfies_of_holds behindHolds ends
          rw [startsWith]
          cases behind with
          | nil => rfl
          | cons cell behind => exact boundary cell rfl
        rw [if_pos rfl, notDigit, ← same]
        exact ⟨_, behind, rfl, behindHolds⟩
      · rcases run_skipRun_of_holds behindHolds word_isDigit ends stop with
          ⟨run, final, skipped, finalHolds⟩
        rw [if_neg zero, run, skipped, same]
        exact ⟨_, final, rfl, finalHolds⟩

theorem reads_token {token : Token} (spelled : token.isSpelled = true)
    (ends : ∀ char ∈ rest.head?, token.endsBefore char = true)
    (holds : Holds cells (token.text.toList ++ rest)) : Reads mode stop cells token rest := by
  cases token with
  | int digits =>
      refine reads_int spelled (fun char member => ?_) holds
      simpa [Token.endsBefore] using ends char member
  | ident name =>
      refine reads_ident spelled (fun char member => ?_) holds
      simpa [Token.endsBefore] using ends char member
  | malformed => contradiction
  | eof => contradiction
  | plus => exact reads_symbol rfl holds
  | minus => exact reads_symbol rfl holds
  | star => exact reads_symbol rfl holds
  | equals => exact reads_symbol rfl holds
  | leftParen => exact reads_symbol rfl holds
  | rightParen => exact reads_symbol rfl holds
  | semicolon => exact reads_symbol rfl holds

/-! ### All tokens -/

theorem drain_of_spells {tokens : List Token} {chars : List Char} (spells : Spells tokens chars)
    (holds : Holds cells chars) :
    ∃ lexemes : List Lexeme, (drain mode ⟨cells, stop⟩).1 = lexemes.map .read ∧
      lexemes.map (·.token) = tokens ++ [.eof] := by
  induction spells generalizing cells with
  | nil =>
      have empty : cells = [] := List.map_eq_nil_iff.mp holds
      subst empty
      refine ⟨[⟨.eof, ⟨stop, stop⟩⟩], ?_, rfl⟩
      rw [drain_of_isEnd rfl]
      rfl
  | blank white rest induction =>
      rename_i char tokens chars
      rcases exists_of_holds_cons holds with ⟨start, behind, rfl, behindHolds⟩
      have skipped :
          scan mode ⟨⟨start, some char⟩ :: behind, stop⟩ = scan mode ⟨behind, stop⟩ := by
        simp only [scan, scanCells, CharClass.of_whiteSpace white]
      rw [drain_congr skipped]
      exact induction behindHolds
  | token spelled ends rest induction =>
      rename_i tokens chars token
      rcases reads_token spelled ends holds with ⟨span, behind, read, behindHolds⟩
      rcases induction behindHolds with ⟨lexemes, items, texts⟩
      have scanned : scan mode ⟨cells, stop⟩ = (.read ⟨token, span⟩, ⟨behind, stop⟩) := read
      have going : (scan mode ⟨cells, stop⟩).1.isEnd = false := by
        rw [scanned]
        cases token <;> first | rfl | contradiction
      refine ⟨⟨token, span⟩ :: lexemes, ?_, ?_⟩
      · rw [drain_of_unfinished going, scanned, items, List.map_cons]
      · rw [List.map_cons, texts, List.cons_append]

theorem holds_ofText (text : String) : Holds (ofText text).cells text.toList := by
  have chars := congrArg (List.map some) (char_offsetsFrom 0 text.toList)
  rw [Holds, ofText_eq, List.map_map, ← chars, List.map_map]
  rfl

end Cursor

/-- The tokens of a spelling are lexed from it in either mode, without an error. -/
theorem lexemes_of_spells {tokens : List Token} {text : String}
    (spells : Spells tokens text.toList) (mode : Mode) :
    (TokenStream.ofText mode text).tokens = tokens ++ [.eof] ∧
      (TokenStream.ofText mode text).errors = [] := by
  rcases Cursor.drain_of_spells spells (Cursor.holds_ofText text) with ⟨lexemes, items, texts⟩
  have lexed : lex mode text = lexemes.map .read := items
  constructor
  · rw [TokenStream.tokens, TokenStream.lexemes_ofText, lexed, List.map_map, List.map_map]
    exact texts
  · rw [TokenStream.ofText, TokenStream.ofItems, lexed, List.filterMap_map]
    simp [Function.comp_def, Item.error?]

/-! ## Every token is spelled -/

/-- A token has a text of the right form, unless it is the end of the source. -/
def Item.Spelled : Item → Prop
  | read lexeme => lexeme.token.isSpelled = true ∨ lexeme.token = .eof
  | failed _ => True

namespace Cursor

theorem mem_run {property : Char → Bool} {cursor : Cursor} {char : Char}
    (member : char ∈ (cursor.run property).toList) : property char = true := by
  rw [run, String.toList_ofList] at member
  rcases List.mem_filterMap.mp member with ⟨cell, taken, read⟩
  have holds := List.all_eq_true.mp List.all_takeWhile cell taken
  rw [Cell.satisfies, read] at holds
  exact holds

theorem isNumeral_run {first : Char} (digit : first.isDigit = true) (nonzero : first ≠ '0')
    (rest : Cursor) : isNumeral (first.toString ++ rest.run Char.isDigit) = true := by
  have text : (first.toString ++ rest.run Char.isDigit).toList =
      first :: (rest.run Char.isDigit).toList := by simp
  rw [isNumeral, text]
  simp only [digit, Bool.true_and, Bool.and_eq_true, List.all_eq_true]
  exact ⟨fun char member => mem_run member, by simp [nonzero]⟩

theorem isName_run {first : Char} (start : isNameStart first = true) (rest : Cursor) :
    isName (first.toString ++ rest.run isNamePart) = true := by
  have text : (first.toString ++ rest.run isNamePart).toList =
      first :: (rest.run isNamePart).toList := by simp
  rw [isName, text]
  simp only [start, Bool.true_and, List.all_eq_true]
  exact fun char member => mem_run member

theorem spelled_scanNumber (start : Nat) {first : Char} (digit : first.isDigit = true)
    (rest : Cursor) : (scanNumber start first rest).1.Spelled := by
  unfold scanNumber
  split
  · split
    · trivial
    · exact .inl rfl
  · next nonzero => exact .inl (isNumeral_run digit nonzero rest)

theorem isSpelled_of_symbol? {char : Char} {token : Token} (symbol : symbol? char = some token) :
    token.isSpelled = true := by
  unfold symbol? at symbol
  split at symbol <;> first | (cases symbol; rfl) | contradiction

theorem spelled_scanCells (mode : Mode) (stop : Nat) (cells : List Cell) :
    (scanCells mode stop cells).1.Spelled := by
  induction cells with
  | nil => exact .inr rfl
  | cons cell rest induction =>
      match cell with
      | ⟨start, none⟩ => exact .inr rfl
      | ⟨start, some char⟩ =>
          simp only [scanCells]
          cases charClass : CharClass.of char with
          | symbol token => exact .inl (isSpelled_of_symbol? (CharClass.symbol?_of charClass))
          | name => exact .inl (isName_run (CharClass.isNameStart_of charClass) ⟨rest, stop⟩)
          | digit => exact spelled_scanNumber start (CharClass.isDigit_of charClass) ⟨rest, stop⟩
          | blank => exact induction
          | other =>
              cases mode with
              | permissive => exact induction
              | strict => trivial

end Cursor

theorem spelled_of_mem_lex {mode : Mode} {text : String} {item : Item}
    (member : item ∈ lex mode text) : item.Spelled :=
  Cursor.forall_mem_drain (fun cursor => Cursor.spelled_scanCells mode cursor.stop cursor.cells)
    _ item member

/-- The tokens of a text have texts of the right form, apart from the end and the places
where the lexer gave up. -/
theorem isSpelled_of_mem_ofText {mode : Mode} {text : String} {lexeme : Lexeme}
    (member : lexeme ∈ (TokenStream.ofText mode text).lexemes) (found : lexeme.token ≠ .malformed)
    (notEnd : lexeme.token ≠ .eof) : lexeme.token.isSpelled = true := by
  rw [TokenStream.lexemes_ofText] at member
  rcases List.mem_map.mp member with ⟨item, itemMember, rfl⟩
  have spelled := spelled_of_mem_lex itemMember
  cases item with
  | read lexeme => exact spelled.resolve_right notEnd
  | failed error => exact absurd rfl found

end Abacus
