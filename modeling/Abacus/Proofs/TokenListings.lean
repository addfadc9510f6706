import Abacus.Proofs.Dumps

/-! # Listings of tokens

The tokens of a source are listed with one line each, which gives the text of a token and the kind
it is of. Neither is quoted, but no text of a token holds a tab or a newline, so a listing can be
read again. It ends with the line of the end of the source, and there is no other such line. -/

namespace Abacus

open TokenStream

/-! ## Lines -/

theorem Text.toList_alignRight (width : Nat) (text : String) :
    (alignRight width text).toList =
      List.replicate (width - text.length) ' ' ++ text.toList := by
  simp [alignRight, blanks]

namespace Token

/-- The line of a token, without its newline. -/
def listingChars (token : Token) : List Char :=
  token.text.toList ++ '\t' :: (Text.alignRight 20 token.description).toList

theorem toList_listingLine (token : Token) :
    (listingLine token).toList = token.listingChars ++ ['\n'] := by
  simp [listingLine, listingChars]

/-- The tokens whose texts stand in one field of one line. -/
def IsListed (token : Token) : Prop :=
  '\t' ∉ token.text.toList ∧ '\n' ∉ token.text.toList

theorem isListed_of_isSpelled {token : Token} (spelled : token.isSpelled = true) :
    token.IsListed := by
  cases token with
  | int digits =>
      have digit := isDigit_of_isNumeral spelled
      exact ⟨fun tab => absurd (digit _ tab) (by decide),
        fun newline => absurd (digit _ newline) (by decide)⟩
  | ident name =>
      have part := isNamePart_of_isName spelled
      exact ⟨fun tab => absurd (part _ tab) (by decide),
        fun newline => absurd (part _ newline) (by decide)⟩
  | malformed => contradiction
  | eof => contradiction
  | _ => simp [IsListed, text]

theorem newline_notMem_listingChars {token : Token} (listed : token.IsListed) :
    '\n' ∉ token.listingChars := by
  have noKind : '\n' ∉ token.description.toList := by
    cases token <;> simp [description]
  simp [listingChars, Text.toList_alignRight, listed.2, noKind]

/-! ## Reading a line -/

/-- A token of every kind, with the text where the kind does not settle it. -/
def ofEveryKind (text : String) : List Token :=
  [.int text, .ident text, .plus, .minus, .star, .equals, .leftParen, .rightParen, .semicolon,
    .malformed, .eof]

theorem mem_ofEveryKind (token : Token) : token ∈ ofEveryKind token.text := by
  cases token <;> simp [ofEveryKind, text]

theorem nodup_description (text : String) : ((ofEveryKind text).map description).Nodup := by
  have same : (ofEveryKind text).map description = (ofEveryKind "").map description := rfl
  rw [same]
  decide +kernel

theorem find?_description {tokens : List Token} (distinct : (tokens.map description).Nodup)
    {token : Token} (member : token ∈ tokens) :
    tokens.find? (·.description = token.description) = some token := by
  induction tokens with
  | nil => contradiction
  | cons first rest induction =>
      rw [List.map_cons, List.nodup_cons] at distinct
      rcases List.mem_cons.mp member with rfl | member
      · exact List.find?_cons_of_pos (by simp)
      · have different : first.description ≠ token.description := by
          intro same
          apply distinct.1
          rw [same]
          exact List.mem_map_of_mem member
        rw [List.find?_cons_of_neg (by simpa using different)]
        exact induction distinct.2 member

/-- The token that a line is about: the one of the kind that stands behind the tab and the blanks,
with the text that stands before them. -/
def ofListing? (line : List Char) : Option Token :=
  let text := String.ofList (line.takeWhile (· ≠ '\t'))
  let kind := String.ofList (((line.dropWhile (· ≠ '\t')).drop 1).dropWhile (· = ' '))
  (ofEveryKind text).find? (·.description = kind)

theorem dropWhile_alignRight_description (token : Token) (width : Nat) :
    (Text.alignRight width token.description).toList.dropWhile (· = ' ') =
      token.description.toList := by
  have visible : token.description.toList.dropWhile (· = ' ') = token.description.toList := by
    cases token <;> simp [description]
  rw [Text.toList_alignRight, List.dropWhile_append_of_pos (by simp), visible]

theorem ofListing?_listingChars {token : Token} (listed : token.IsListed) :
    ofListing? token.listingChars = some token := by
  rw [ofListing?, listingChars, Text.takeWhile_ne_append listed.1,
    Text.dropWhile_ne_append listed.1, String.ofList_toList, List.drop_one, List.tail_cons,
    dropWhile_alignRight_description, String.ofList_toList]
  exact find?_description (nodup_description _) (mem_ofEveryKind token)

end Token

/-! ## All lines -/

namespace TokenStream

/-- The tokens that the lines of a listing are about. -/
def readListing (listing : String) : List Token :=
  ((Text.lines listing).map (·.chars)).filterMap fun line => Token.ofListing? line.dropLast

section Listed

variable {stream : TokenStream} (listed : ∀ token ∈ stream.tokens, token.IsListed)
include listed

theorem chars_lines_listing :
    (Text.lines stream.listing).map (·.chars) =
      stream.tokens.map (fun token => token.listingChars ++ ['\n']) ++ [[]] := by
  have unbroken : ∀ line ∈ stream.tokens.map Token.listingChars, '\n' ∉ line := by
    intro line member
    rcases List.mem_map.mp member with ⟨token, found, rfl⟩
    exact Token.newline_notMem_listingChars (listed token found)
  have chars : stream.listing.toList =
      (stream.tokens.map Token.listingChars).flatMap (· ++ ['\n']) := by
    rw [listing, String.toList_join, List.flatMap_map, List.flatMap_map]
    simp only [Token.toList_listingLine]
  rw [Text.lines, chars, Text.chars_linesFrom unbroken, List.map_map, Function.comp_def]

theorem lines_listing :
    (Text.lines stream.listing).map (fun line => String.ofList line.chars) =
      stream.tokens.map listingLine ++ [""] := by
  have chars := congrArg (List.map String.ofList) (chars_lines_listing listed)
  have each : stream.tokens.map (fun token => String.ofList (token.listingChars ++ ['\n'])) =
      stream.tokens.map listingLine := by
    apply List.map_congr_left
    intro token _
    rw [← Token.toList_listingLine, String.ofList_toList]
  rw [List.map_map, List.map_append, List.map_map, Function.comp_def, Function.comp_def,
    each] at chars
  exact chars

/-- A listing can be read again. -/
theorem readListing_listing : readListing stream.listing = stream.tokens := by
  -- The empty line behind the last newline is about no token.
  have nothing : [[]].filterMap (fun line => Token.ofListing? line.dropLast) = [] := by
    decide +kernel
  rw [readListing, chars_lines_listing listed, List.filterMap_append, nothing, List.append_nil]
  generalize stream.tokens = tokens at listed
  induction tokens with
  | nil => rfl
  | cons token tokens induction =>
      have read := Token.ofListing?_listingChars (listed token List.mem_cons_self)
      have further := induction fun other member => listed other (List.mem_cons_of_mem _ member)
      rw [List.map_cons, List.filterMap_cons, List.dropLast_concat, read, further]

end Listed

theorem isListed_of_mem_ofText {mode : Mode} {text : String} {token : Token}
    (member : token ∈ (ofText mode text).tokens) : token.IsListed := by
  rcases List.mem_map.mp member with ⟨lexeme, found, rfl⟩
  by_cases malformed : lexeme.token = .malformed
  · simp [malformed, Token.IsListed, Token.text]
  · by_cases atEnd : lexeme.token = .eof
    · simp [atEnd, Token.IsListed, Token.text]
    · exact Token.isListed_of_isSpelled (isSpelled_of_mem_ofText found malformed atEnd)

theorem exists_front_of_tokens (mode : Mode) (text : String) :
    ∃ front, (ofText mode text).tokens = front ++ [.eof] ∧ .eof ∉ front := by
  rcases Cursor.exists_front_of_drain mode (Cursor.ofText text) with
    ⟨front, final, items, isEnd, notEnd, _⟩
  rcases Item.exists_of_isEnd isEnd with ⟨span, rfl⟩
  refine ⟨front.map (·.lexeme.token), ?_, ?_⟩
  · rw [tokens, lexemes_ofText, lex, items, List.map_map, List.map_append]
    rfl
  · intro member
    rcases List.mem_map.mp member with ⟨item, found, equal⟩
    exact Item.token_ne_eof (notEnd item found) equal

theorem listingLine_notMem_map {front : List Token} (listed : ∀ token ∈ front, token.IsListed)
    (notEnd : .eof ∉ front) : listingLine .eof ∉ front.map listingLine := by
  intro member
  rcases List.mem_map.mp member with ⟨token, found, equal⟩
  have chars := congrArg String.toList equal
  rw [Token.toList_listingLine, Token.toList_listingLine] at chars
  have read := congrArg Token.ofListing? (List.append_cancel_right chars)
  have ended : Token.eof.IsListed := by simp [Token.IsListed, Token.text]
  rw [Token.ofListing?_listingChars (listed token found), Token.ofListing?_listingChars ended,
    Option.some.injEq] at read
  exact notEnd (read ▸ found)

end TokenStream

/-- Texts with the same listing have the same tokens, whichever mode each of them was read in. A
listing has one line for each token. The last line is that of the end of the source, and no other
line is. -/
theorem listing_tells_tokens :
    (∀ (firstMode secondMode : Mode) (first second : String),
      (TokenStream.ofText firstMode first).listing =
        (TokenStream.ofText secondMode second).listing →
      (TokenStream.ofText firstMode first).tokens =
        (TokenStream.ofText secondMode second).tokens) ∧
    ∀ (mode : Mode) (text : String), ∃ front : List Token,
      (TokenStream.ofText mode text).tokens = front ++ [.eof] ∧
      (Text.lines (TokenStream.ofText mode text).listing).map
          (fun line => String.ofList line.chars) =
        front.map listingLine ++ [listingLine .eof] ++ [""] ∧
      listingLine .eof ∉ front.map listingLine := by
  constructor
  · intro firstMode secondMode first second same
    have read := congrArg TokenStream.readListing same
    rwa [TokenStream.readListing_listing fun _ => TokenStream.isListed_of_mem_ofText,
      TokenStream.readListing_listing fun _ => TokenStream.isListed_of_mem_ofText] at read
  · intro mode text
    have listed : ∀ token ∈ (TokenStream.ofText mode text).tokens, token.IsListed :=
      fun _ => TokenStream.isListed_of_mem_ofText
    rcases TokenStream.exists_front_of_tokens mode text with ⟨front, tokens, notEnd⟩
    refine ⟨front, tokens, ?_, ?_⟩
    · have lines := TokenStream.lines_listing listed
      rw [tokens, List.map_append] at lines
      exact lines
    · rw [tokens] at listed
      exact TokenStream.listingLine_notMem_map
        (fun token member => listed token (List.mem_append_left _ member)) notEnd

/-- A variable with the placeholder of a malformed token for its name, and such a token. -/
theorem listing_tells_tokens_placeholder :
    (TokenStream.ofText .permissive "error \u00e9 = 007").listing =
      (TokenStream.ofText .strict " error=00").listing ∧
    (TokenStream.ofText .permissive "error \u00e9 = 007").tokens =
      (TokenStream.ofText .strict " error=00").tokens ∧
    (TokenStream.ofText .strict " error=00").tokens =
      [.ident "error", .equals, .malformed, .eof] := by
  have listings : (TokenStream.ofText .permissive "error \u00e9 = 007").listing =
      (TokenStream.ofText .strict " error=00").listing := by decide +kernel
  exact ⟨listings, listing_tells_tokens.1 _ _ _ _ listings, by decide +kernel⟩

end Abacus
