import Abacus.Proofs.RoundTrip

/-! # Rows of tokens as texts

The texts of tokens can be written one after the other, with blanks between them. Which blanks
these are does not matter: lexing the whole gives the tokens back, in either mode and without an
error. -/

namespace Abacus

/-- Blanks only, of whatever width, or nothing at all. -/
def isBlank (gap : String) : Bool := gap.toList.all Text.isWhiteSpace

/-- Tokens written in a row, each with the gap behind it, and a gap in front of all. -/
def spaced (opening : String) (pieces : List (Token × String)) : String :=
  opening ++ String.join (pieces.map fun piece => piece.1.text ++ piece.2)

theorem toList_spaced (opening : String) (pieces : List (Token × String)) :
    (spaced opening pieces).toList =
      opening.toList ++ pieces.flatMap fun piece => piece.1.text.toList ++ piece.2.toList := by
  rw [spaced, String.toList_append, String.toList_join, List.flatMap_map]
  simp only [String.toList_append]

/-! ## Blanks -/

theorem Spells.behind_blanks {tokens : List Token} {chars gap : List Char}
    (spells : Spells tokens chars) (blank : ∀ char ∈ gap, Text.isWhiteSpace char = true) :
    Spells tokens (gap ++ chars) := by
  induction gap with
  | nil => exact spells
  | cons char gap induction =>
      have further := induction fun other member => blank other (List.mem_cons_of_mem _ member)
      exact .blank (blank char List.mem_cons_self) further

/-- A gap keeps what stands before it from going on, unless there is neither a gap nor anything
behind it. -/
theorem delimited_of_isBlank {gap : String} (blank : isBlank gap = true) {chars : List Char}
    (apart : gap = "" → chars = []) : Expression.Delimited (gap.toList ++ chars) := by
  intro char member
  cases equal : gap.toList with
  | nil =>
      have empty : gap = "" := String.toList_eq_nil_iff.mp equal
      rw [equal, apart empty] at member
      contradiction
  | cons first rest =>
      rw [equal] at member
      cases member
      have white : Text.isWhiteSpace char = true :=
        List.all_eq_true.mp blank char (by simp [equal])
      exact not_isNamePart_of_isWhiteSpace white

/-! ## Tokens and gaps -/

theorem spells_pieces {pieces : List (Token × String)}
    (spelled : ∀ piece ∈ pieces, piece.1.isSpelled = true)
    (blank : ∀ piece ∈ pieces, isBlank piece.2 = true)
    (apart : ∀ piece ∈ pieces.dropLast, piece.2 ≠ "") :
    Spells (pieces.map (·.1))
      (pieces.flatMap fun piece => piece.1.text.toList ++ piece.2.toList) := by
  induction pieces with
  | nil => exact .nil
  | cons piece rest induction =>
      have restApart : ∀ other ∈ rest.dropLast, other.2 ≠ "" := by
        intro other member
        apply apart
        cases rest with
        | nil => contradiction
        | cons next later => exact List.mem_cons_of_mem _ member
      have further := induction
        (fun other member => spelled other (List.mem_cons_of_mem _ member))
        (fun other member => blank other (List.mem_cons_of_mem _ member)) restApart
      -- Only the last gap may be empty, and nothing follows that one.
      have last : piece.2 = "" →
          (rest.flatMap fun piece => piece.1.text.toList ++ piece.2.toList) = [] := by
        intro empty
        cases rest with
        | nil => rfl
        | cons next later => exact absurd empty (apart piece List.mem_cons_self)
      have pieceBlank := blank piece List.mem_cons_self
      have delimited := delimited_of_isBlank pieceBlank last
      rw [List.map_cons, List.flatMap_cons, List.append_assoc]
      exact .token (spelled piece List.mem_cons_self)
        (Expression.endsBefore_of_delimited delimited)
        (further.behind_blanks (List.all_eq_true.mp pieceBlank))

/-- Tokens are read back from their texts, whatever blanks stand between these. Blanks before the
first and behind the last of them are not needed. -/
theorem tokens_of_spaced (mode : Mode) (opening : String) (pieces : List (Token × String))
    (spelled : ∀ piece ∈ pieces, piece.1.isSpelled = true)
    (openingBlank : isBlank opening = true)
    (blank : ∀ piece ∈ pieces, isBlank piece.2 = true)
    (apart : ∀ piece ∈ pieces.dropLast, piece.2 ≠ "") :
    (TokenStream.ofText mode (spaced opening pieces)).tokens = pieces.map (·.1) ++ [.eof] ∧
      (TokenStream.ofText mode (spaced opening pieces)).errors = [] := by
  have spells : Spells (pieces.map (·.1)) (spaced opening pieces).toList := by
    rw [toList_spaced]
    exact (spells_pieces spelled blank apart).behind_blanks (List.all_eq_true.mp openingBlank)
  exact lexemes_of_spells spells mode

/-- Numerals that would run together without a gap, between blanks of several widths. -/
def numeralsApart : List (Token × String) :=
  [(.int "0", "\t"), (.int "10", "\r\n"), (.ident "_1", "\u3000"), (.minus, " "), (.int "7", "")]

theorem tokens_of_spaced_numeralsApart :
    spaced "\u00a0" numeralsApart = "\u00a00\t10\r\n_1\u3000- 7" ∧
    (∀ piece ∈ numeralsApart, piece.1.isSpelled = true) ∧
    (∀ piece ∈ numeralsApart.dropLast, piece.2 ≠ "") ∧
    ∀ mode,
      (TokenStream.ofText mode "\u00a00\t10\r\n_1\u3000- 7").tokens =
        [.int "0", .int "10", .ident "_1", .minus, .int "7", .eof] ∧
      (TokenStream.ofText mode "\u00a00\t10\r\n_1\u3000- 7").errors = [] := by
  have written : spaced "\u00a0" numeralsApart = "\u00a00\t10\r\n_1\u3000- 7" := by
    decide +kernel
  have spelled : ∀ piece ∈ numeralsApart, piece.1.isSpelled = true := by decide +kernel
  have blank : ∀ piece ∈ numeralsApart, isBlank piece.2 = true := by decide +kernel
  have apart : ∀ piece ∈ numeralsApart.dropLast, piece.2 ≠ "" := by decide +kernel
  refine ⟨written, spelled, apart, fun mode => ?_⟩
  rw [← written]
  exact tokens_of_spaced mode _ numeralsApart spelled (by decide +kernel) blank apart

end Abacus
