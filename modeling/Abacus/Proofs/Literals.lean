import Abacus.Proofs.Excerpts
import Abacus.Proofs.RoundTrip
import Abacus.Proofs.Sessions

/-! # Literals

A literal in decimal digits stands for exactly that integer, over the whole range of values. A
negative literal is a sign before a numeral, and the numeral is read first. So the magnitude of
the least integer, which does not fit without its sign, is read together with it. A literal out of
range is reported by its digits, at their place. -/

namespace Abacus

open Grammar

/-! ## The range -/

namespace Integer

theorem fits_iff {number : Int} :
    Fits number ↔ -9223372036854775808 ≤ number ∧ number ≤ 9223372036854775807 := by
  have lowest : Int64.minValue.toInt = -9223372036854775808 := by decide
  have highest : Int64.maxValue.toInt = 9223372036854775807 := by decide
  rw [Fits, lowest, highest]

theorem exists_of_fits {number : Int} (fits : Fits number) :
    ∃ value, ofInt? number = some value := by
  rw [← Option.ne_none_iff_exists']
  intro misfit
  exact ofInt?_eq_none_iff.mp misfit fits

/-- What does not fit with its sign does not fit without it. -/
theorem ofText?_magnitude_of_not_fits {number : Int} (misfit : ¬ Fits number) :
    ofText? (Text.naturalText number.natAbs) = none := by
  rw [ofText?_naturalText, ofInt?_eq_none_iff]
  rw [fits_iff] at misfit ⊢
  omega

end Integer

/-! ## Literals that fit -/

/-- Some tokens are derived as a factor with the given value. -/
def ReadAs (tokens : List Token) (number : Int) : Prop :=
  ∃ derivation : Derivation .factor, derivation.lexemes.map (·.token) = tokens ∧
    ∃ value : Int64, value.toInt = number ∧ ∀ store, derivation.tree.eval store = .ok value

theorem readAs_numeral {magnitude : Nat} (fits : Integer.Fits magnitude) :
    ReadAs [.int (Text.naturalText magnitude)] magnitude := by
  rcases Integer.exists_of_fits fits with ⟨value, checked⟩
  have reads := (Integer.ofText?_naturalText magnitude).trans checked
  exact ⟨.literal _ (.point 0) value reads, rfl, value, Integer.ofInt?_eq_some_iff.mp checked,
    fun _ => rfl⟩

theorem readAs_least :
    ReadAs [.minus, .int (Text.naturalText Int64.minValue.toInt.natAbs)]
      Int64.minValue.toInt := by
  have reads : Integer.ofText? ("-" ++ Text.naturalText Int64.minValue.toInt.natAbs) =
      some Int64.minValue := by
    rw [Integer.ofText?_minus_naturalText, Integer.ofInt?_eq_some_iff]
    decide
  exact ⟨.least (.point 0) _ (.point 0) reads, rfl, Int64.minValue, rfl, fun _ => rfl⟩

/-- A numeral that fits also fits under a minus sign. -/
theorem readAs_negated {magnitude : Nat} (fits : Integer.Fits magnitude) :
    ReadAs [.minus, .int (Text.naturalText magnitude)] (-magnitude) := by
  rcases Integer.exists_of_fits fits with ⟨value, checked⟩
  have reads := (Integer.ofText?_naturalText magnitude).trans checked
  have exact := Integer.ofInt?_eq_some_iff.mp checked
  have negatedFits : Integer.Fits (-magnitude) := by
    rw [Integer.fits_iff] at fits ⊢
    omega
  rcases Integer.exists_of_fits negatedFits with ⟨negated, negatedChecked⟩
  refine ⟨.signed ⟨.minus, .point 0⟩ (.inl rfl) (.literal _ (.point 0) value reads), rfl, negated,
    Integer.ofInt?_eq_some_iff.mp negatedChecked, fun store => ?_⟩
  have negation : Integer.neg? value = some negated := by
    rw [Integer.neg?, exact, negatedChecked]
  simp only [Derivation.tree, Expression.eval, evalUnary, negation, orOverflow]

theorem readAs_literalTokens {number : Int} (fits : Integer.Fits number) :
    ReadAs (Expression.literalTokens number) number := by
  unfold Expression.literalTokens
  split
  · next negative =>
      by_cases least : number = Int64.minValue.toInt
      · rw [least]
        exact readAs_least
      · have magnitude : number = -(number.natAbs : Int) := by omega
        have magnitudeFits : Integer.Fits number.natAbs := by
          have lowest : Int64.minValue.toInt = -9223372036854775808 := by decide
          rw [Integer.fits_iff] at fits ⊢
          omega
        have read := readAs_negated magnitudeFits
        rwa [← magnitude] at read
  · next nonnegative =>
      have magnitude : (number.natAbs : Int) = number := by omega
      have read := readAs_numeral (magnitude.symm ▸ fits)
      rwa [magnitude] at read

/-! ## Literals out of range -/

theorem expression_numeral_failed {digits : String} (misfit : Integer.ofText? digits = none)
    (span : Span) (rest : List Lexeme) :
    expression .factor (⟨.int digits, span⟩ :: rest) =
      .failed ⟨.literalOutOfRange digits, span⟩ rest := by
  rw [expression_int _ rfl]
  simp only [literal, misfit]

/-- Under a minus sign, the numeral is out of range only if its negation is as well. -/
theorem expression_negated_failed {digits : String} (misfit : Integer.ofText? digits = none)
    (negatedMisfit : Integer.ofText? ("-" ++ digits) = none) (sign span : Span)
    (rest : List Lexeme) :
    expression .factor (⟨.minus, sign⟩ :: ⟨.int digits, span⟩ :: rest) =
      .failed ⟨.literalOutOfRange digits, span⟩ rest := by
  have notLeast : leastLiteral? (⟨.minus, sign⟩ :: ⟨.int digits, span⟩ :: rest) = none := by
    simp [leastLiteral?, isLeastMagnitude, negatedMisfit]
  rw [expression_sign _ rfl notLeast, expression_numeral_failed misfit]
  rfl

theorem expression_literalTokens_failed {number : Int} (misfit : ¬ Integer.Fits number)
    {input : List Lexeme} {behind : List Token}
    (tokens : input.map (·.token) = Expression.literalTokens number ++ behind) :
    ∃ span left, ⟨.int (Text.naturalText number.natAbs), span⟩ ∈ input ∧
      expression .factor input =
        .failed ⟨.literalOutOfRange (Text.naturalText number.natAbs), span⟩ left := by
  have numeral := Integer.ofText?_magnitude_of_not_fits misfit
  unfold Expression.literalTokens at tokens
  split at tokens
  · next negative =>
      have magnitude : -(number.natAbs : Int) = number := by omega
      have negated : Integer.ofText? ("-" ++ Text.naturalText number.natAbs) = none := by
        rw [Integer.ofText?_minus_naturalText, magnitude]
        exact Integer.ofInt?_eq_none_iff.mpr misfit
      rcases List.map_eq_cons_iff.mp tokens with ⟨⟨_, sign⟩, signed, rfl, rfl, further⟩
      rcases List.map_eq_cons_iff.mp further with ⟨⟨_, span⟩, rest, rfl, rfl, _⟩
      exact ⟨span, rest, List.mem_cons_of_mem _ List.mem_cons_self,
        expression_negated_failed numeral negated sign span rest⟩
  · rcases List.map_eq_cons_iff.mp tokens with ⟨⟨_, span⟩, rest, rfl, rfl, _⟩
    exact ⟨span, rest, List.mem_cons_self, expression_numeral_failed numeral span rest⟩

theorem assignment_value_failed {name : String} {nameSpan equals : Span}
    {input left : List Lexeme} {error : SyntaxError}
    (unread : expression .sum input = .failed error left) :
    assignment (⟨.ident name, nameSpan⟩ :: ⟨.equals, equals⟩ :: input) = .failed error left := by
  simp only [assignment, expect, if_true, unread]

/-! ## Running an assignment -/

/-- The program that assigns a number in decimal digits. -/
def decimalAssignment (number : Int) : String := "x = " ++ Text.integerText number ++ ";"

theorem tokens_decimalAssignment (mode : Mode) (number : Int) :
    (TokenStream.ofText mode (decimalAssignment number)).tokens =
      .ident "x" :: .equals :: (Expression.literalTokens number ++ [.semicolon, .eof]) := by
  have closing : Spells [.semicolon] [';'] := .token rfl (fun _ _ => rfl) .nil
  have literal := Expression.spells_integerText number closing (Expression.delimited_cons rfl [])
  have equals : Spells (.equals :: _) ('=' :: ' ' :: _) :=
    .token rfl (fun _ _ => rfl) (.blank rfl literal)
  have whole : Spells (.ident "x" :: _) ('x' :: ' ' :: _) :=
    .token rfl (Expression.endsBefore_of_delimited (Expression.delimited_cons rfl _))
      (.blank rfl equals)
  have text : (decimalAssignment number).toList =
      'x' :: ' ' :: '=' :: ' ' :: ((Text.integerText number).toList ++ [';']) := by
    simp [decimalAssignment]
  rw [← text] at whole
  rw [(lexemes_of_spells whole mode).1]
  simp

/-- The assignment of a factor, at no place in particular. -/
def assigns (derivation : Derivation .factor) : Derivation.Statement :=
  ⟨"x", .point 0, .point 0, .term (.factor derivation), .point 0⟩

theorem tokens_assigns (derivation : Derivation .factor) :
    (Derivation.programLexemes [assigns derivation] ++ [⟨.eof, .point 0⟩] : List Lexeme).map
        (·.token) =
      .ident "x" :: .equals :: (derivation.lexemes.map (·.token) ++ [.semicolon, .eof]) := by
  simp [Derivation.programLexemes, Derivation.Statement.lexemes, assigns, Derivation.lexemes]

theorem run_decimalAssignment_of_fits (mode : Mode) {number : Int} (fits : Integer.Fits number)
    (store : Store) :
    ∃ value : Int64, value.toInt = number ∧
      (Run.ofText mode (decimalAssignment number) store).result = .ok (store.set "x" value) := by
  rcases readAs_literalTokens fits with ⟨derivation, tokens, value, exact, evaluated⟩
  have stored : evalStatements store ([assigns derivation].map Derivation.Statement.tree) =
      (.ok (), store.set "x" value) := by
    have tree : (assigns derivation).tree.value = derivation.tree := rfl
    simp only [List.map_cons, List.map_nil, evalStatements, Assignment.eval, tree, evaluated]
    rfl
  have same := (tokens_decimalAssignment mode number).trans
    (tokens ▸ (tokens_assigns derivation).symm)
  exact ⟨value, exact, execute_of_erased_eq _ stored (Relocation.erased_eq_of_tokens_eq same)⟩

theorem read_mem_lex_of_mem_lexemes {mode : Mode} {text : String} {lexeme : Lexeme}
    (member : lexeme ∈ (TokenStream.ofText mode text).lexemes)
    (proper : lexeme.token ≠ .malformed) : .read lexeme ∈ lex mode text := by
  rw [TokenStream.lexemes_ofText] at member
  rcases List.mem_map.mp member with ⟨item, found, rfl⟩
  cases item with
  | read lexeme => exact found
  | failed error => exact absurd rfl proper

theorem run_decimalAssignment_of_not_fits (mode : Mode) {number : Int}
    (misfit : ¬ Integer.Fits number) (store : Store) :
    ∃ span, (Run.ofText mode (decimalAssignment number) store).result =
        .error (.parsing ⟨"<input>", decimalAssignment number⟩
          ⟨.literalOutOfRange (Text.naturalText number.natAbs), span⟩) ∧
      Excerpt (decimalAssignment number) span (Text.naturalText number.natAbs) := by
  have tokens := tokens_decimalAssignment mode number
  rcases List.map_eq_cons_iff.mp tokens with ⟨⟨_, nameSpan⟩, further, split, rfl, behindName⟩
  rcases List.map_eq_cons_iff.mp behindName with ⟨⟨_, equals⟩, input, rfl, rfl, behindEquals⟩
  rcases expression_literalTokens_failed misfit behindEquals with ⟨span, left, member, unread⟩
  refine ⟨span, ?_, ?_⟩
  · have unreadSum : expression .sum input = .failed _ left :=
      expression_failed rfl (expression_failed rfl unread)
    simp only [Run.ofText, Run.ofStream, split]
    exact execute_of_failed _ rfl (assignment_value_failed unreadSum) store
  · have numeral : .read ⟨.int (Text.naturalText number.natAbs), span⟩ ∈
        lex mode (decimalAssignment number) := by
      apply read_mem_lex_of_mem_lexemes
      · rw [split]
        exact List.mem_cons_of_mem _ (List.mem_cons_of_mem _ member)
      · exact Token.noConfusion
    rcases excerpt_of_read_mem_lex numeral Token.noConfusion with
      ⟨_, _, _, before, behind, text, place, _⟩
    exact ⟨before, behind, text, place⟩

/-- An integer that is assigned in decimal digits is stored exactly if it is in range. Otherwise
the run fails, and the error names the digits of its magnitude and covers exactly these. -/
theorem run_decimalAssignment (mode : Mode) (number : Int) (store : Store) :
    (-9223372036854775808 ≤ number ∧ number ≤ 9223372036854775807 →
      ∃ value : Int64, value.toInt = number ∧
        (Run.ofText mode (decimalAssignment number) store).result =
          .ok (store.set "x" value)) ∧
    (¬ (-9223372036854775808 ≤ number ∧ number ≤ 9223372036854775807) →
      ∃ span, (Run.ofText mode (decimalAssignment number) store).result =
          .error (.parsing ⟨"<input>", decimalAssignment number⟩
            ⟨.literalOutOfRange (Text.naturalText number.natAbs), span⟩) ∧
        Excerpt (decimalAssignment number) span (Text.naturalText number.natAbs)) := by
  rw [← Integer.fits_iff]
  constructor
  · intro fits
    exact run_decimalAssignment_of_fits mode fits store
  · intro misfit
    exact run_decimalAssignment_of_not_fits mode misfit store

theorem run_decimalAssignment_limits :
    (∃ value : Int64, value.toInt = -9223372036854775808 ∧
      (Run.ofText .strict "x = -9223372036854775808;" .empty).result =
        .ok (Store.empty.set "x" value)) ∧
    (∃ span, (Run.ofText .strict "x = 9223372036854775808;" .empty).result =
        .error (.parsing ⟨"<input>", "x = 9223372036854775808;"⟩
          ⟨.literalOutOfRange "9223372036854775808", span⟩) ∧
      Excerpt "x = 9223372036854775808;" span "9223372036854775808") ∧
    (∃ span, (Run.ofText .strict "x = -9223372036854775809;" .empty).result =
        .error (.parsing ⟨"<input>", "x = -9223372036854775809;"⟩
          ⟨.literalOutOfRange "9223372036854775809", span⟩) ∧
      Excerpt "x = -9223372036854775809;" span "9223372036854775809") := by
  have least := (run_decimalAssignment .strict (-9223372036854775808) .empty).1 (by decide)
  have above := (run_decimalAssignment .strict 9223372036854775808 .empty).2 (by decide)
  have below := (run_decimalAssignment .strict (-9223372036854775809) .empty).2 (by decide)
  exact ⟨least, above, below⟩

end Abacus
