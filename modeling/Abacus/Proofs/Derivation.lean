import Abacus.Parser
import Abacus.Proofs.Reading

/-! # Derivations

The grammar as trees of rules, apart from the way it is read. The tokens at the
leaves of a derivation, from left to right, are what it derives, and each
derivation stands for one tree of the language. Reading gives a tree exactly if
the tokens have a derivation that stands for it. -/

namespace Abacus

open Grammar

namespace Integer

/-- A magnitude that needs its sign to fit does not fit without it. -/
theorem ofText?_eq_none_of_least {digits : String}
    (reads : ofText? ("-" ++ digits) = some Int64.minValue) : ofText? digits = none := by
  rw [ofText?, Text.readInteger?_minus] at reads
  cases magnitude : Text.readDigits? digits.toList with
  | none => simp [magnitude] at reads
  | some number =>
      simp only [magnitude, Option.map_some, Option.bind_some, ofInt?_eq_some_iff] at reads
      have allDigits : ∀ char ∈ digits.toList, char.isDigit = true := by
        unfold Text.readDigits? at magnitude
        split at magnitude
        · next holds => simpa using (Bool.and_eq_true_iff.mp holds).2
        · contradiction
      rw [ofText?, Text.readInteger?_of_all_isDigit allDigits, magnitude, Option.map_some,
        Option.bind_some, ofInt?_eq_none_iff]
      have lowest : Int64.minValue.toInt = -9223372036854775808 := by decide
      have highest : Int64.maxValue.toInt = 9223372036854775807 := by decide
      simp only [Fits, highest, Int.ofNat_eq_natCast]
      omega

end Integer

/-! ## Rules -/

inductive Derivation : Layer → Type
  | term (only : Derivation .product) : Derivation .sum
  | sum (left : Derivation .product) (operator : Lexeme)
      (additive : operator.token = .plus ∨ operator.token = .minus)
      (right : Derivation .sum) : Derivation .sum
  | factor (only : Derivation .factor) : Derivation .product
  | product (left : Derivation .factor) (star : Span) (right : Derivation .product) :
      Derivation .product
  | parentheses (opening : Span) (inner : Derivation .sum) (closing : Span) : Derivation .factor
  | signed (sign : Lexeme) (isSign : sign.token = .minus ∨ sign.token = .plus)
      (operand : Derivation .factor) : Derivation .factor
  | literal (digits : String) (span : Span) (value : Int64)
      (reads : Integer.ofText? digits = some value) : Derivation .factor
  /-- The least integer, whose numeral has no value without its sign. -/
  | least (minus : Span) (digits : String) (span : Span)
      (reads : Integer.ofText? ("-" ++ digits) = some Int64.minValue) : Derivation .factor
  | identifier (name : String) (span : Span) : Derivation .factor

namespace Derivation

def lexemes : Derivation layer → List Lexeme
  | term only => only.lexemes
  | sum left operator _ right => left.lexemes ++ operator :: right.lexemes
  | factor only => only.lexemes
  | product left star right => left.lexemes ++ ⟨.star, star⟩ :: right.lexemes
  | parentheses opening inner closing =>
      ⟨.leftParen, opening⟩ :: (inner.lexemes ++ [⟨.rightParen, closing⟩])
  | signed sign _ operand => sign :: operand.lexemes
  | literal digits span _ _ => [⟨.int digits, span⟩]
  | least minus digits span _ => [⟨.minus, minus⟩, ⟨.int digits, span⟩]
  | identifier name span => [⟨.ident name, span⟩]

def tree : Derivation layer → Expression
  | term only => only.tree
  | sum left operator _ right =>
      .binary operator.token left.tree right.tree (spanning left.tree.span right.tree.span)
  | factor only => only.tree
  | product left _ right =>
      .binary .star left.tree right.tree (spanning left.tree.span right.tree.span)
  | parentheses opening inner closing => .nested inner.tree (spanning opening closing)
  | signed sign _ operand =>
      .unary sign.token operand.tree (spanning sign.span operand.tree.span)
  | literal _ span value _ => .integer value span
  | least minus _ span _ => .integer Int64.minValue (spanning minus span)
  | identifier name span => .identifier name span

structure Statement where
  name : String
  nameSpan : Span
  equals : Span
  value : Derivation .sum
  semicolon : Span

namespace Statement

def lexemes (statement : Statement) : List Lexeme :=
  ⟨.ident statement.name, statement.nameSpan⟩ :: ⟨.equals, statement.equals⟩ ::
    (statement.value.lexemes ++ [⟨.semicolon, statement.semicolon⟩])

def tree (statement : Statement) : Assignment :=
  ⟨statement.name, statement.nameSpan, statement.value.tree,
    spanning statement.nameSpan statement.semicolon⟩

end Statement

/-! A program derives the tokens of its statements, one statement after the other. -/

def programLexemes (statements : List Statement) : List Lexeme :=
  statements.flatMap Statement.lexemes

def programTree (statements : List Statement) : Program :=
  .ofStatements (statements.map Statement.tree)

end Derivation

/-! ## Reading what is derived -/

namespace Grammar

/-- The tokens that make an expression of the layer longer when they follow it. -/
def Layer.continues : Layer → Token → Bool
  | sum, token => sum.joins token || product.joins token
  | product, token => product.joins token
  | factor, _ => false

def Layer.StopsAt (layer : Layer) (rest : List Lexeme) : Prop :=
  ∀ lexeme ∈ rest.head?, layer.continues lexeme.token = false

theorem stopsAt_product {rest : List Lexeme} (stops : Layer.sum.StopsAt rest) :
    Layer.product.StopsAt rest :=
  fun lexeme member => (Bool.or_eq_false_iff.mp (stops lexeme member)).2

theorem stopsAt_cons {layer : Layer} (next : Lexeme)
    (ends : layer.continues next.token = false) (rest : List Lexeme) :
    layer.StopsAt (next :: rest) := by
  intro lexeme member
  have same : next = lexeme := Option.some.inj member
  rw [← same]
  exact ends

theorem stopsAt_product_of_additive {operator : Lexeme}
    (additive : operator.token = .plus ∨ operator.token = .minus) (rest : List Lexeme) :
    Layer.product.StopsAt (operator :: rest) := by
  apply stopsAt_cons
  rcases additive with token | token <;> rw [token] <;> rfl

theorem not_stopsAt_sum_of_additive {operator : Lexeme} {rest : List Lexeme}
    (additive : operator.token = .plus ∨ operator.token = .minus) :
    ¬ Layer.sum.StopsAt (operator :: rest) := by
  intro stops
  have stop := stops operator rfl
  rcases additive with token | token <;> rw [token] at stop <;> contradiction

theorem not_stopsAt_product_star {star : Span} {rest : List Lexeme} :
    ¬ Layer.product.StopsAt (⟨.star, star⟩ :: rest) := by
  intro stops
  have stop := stops ⟨.star, star⟩ rfl
  contradiction

theorem stopsAt_factor (rest : List Lexeme) : Layer.factor.StopsAt rest :=
  fun _ _ => rfl

/-- No operand starts with the numeral of the least integer. -/
theorem leastLiteral?_eq_none (sign : Lexeme) (operand : Derivation .factor)
    (rest : List Lexeme) : leastLiteral? (sign :: (operand.lexemes ++ rest)) = none := by
  unfold leastLiteral?
  split
  · next digits span rest equal =>
      rw [List.cons.injEq] at equal
      rw [if_neg]
      cases operand with
      | literal found place value reads =>
          simp only [Derivation.lexemes, List.cons_append, List.cons.injEq, Lexeme.mk.injEq,
            Token.int.injEq] at equal
          rcases equal with ⟨-, ⟨rfl, -⟩, -⟩
          intro isLeast
          have none := Integer.ofText?_eq_none_of_least (eq_of_beq isLeast)
          simp [reads] at none
      | signed other isSign operand =>
          simp only [Derivation.lexemes, List.cons_append, List.cons.injEq] at equal
          rw [equal.2.1] at isSign
          simp at isSign
      | parentheses opening inner closing => simp [Derivation.lexemes] at equal
      | least minus digits span reads => simp [Derivation.lexemes] at equal
      | identifier name span => simp [Derivation.lexemes] at equal
  · rfl

theorem expression_lexemes (derivation : Derivation layer) {rest : List Lexeme}
    (stops : layer.StopsAt rest) :
    (expression layer (derivation.lexemes ++ rest)).Gives derivation.tree rest := by
  induction derivation generalizing rest with
  | term only induction =>
      have bounds := fun lexeme member => Bool.or_eq_false_iff.mp (stops lexeme member)
      exact expression_alone rfl (induction (stopsAt_product stops))
        fun lexeme member => (bounds lexeme member).1
  | sum left operator additive right leftInduction rightInduction =>
      have joins : Layer.sum.joins operator.token = true := by
        rcases additive with token | token <;> rw [token] <;> rfl
      have leftRead := leftInduction (stopsAt_product_of_additive additive (right.lexemes ++ rest))
      rw [Derivation.lexemes, List.append_assoc]
      exact expression_joined rfl leftRead joins (rightInduction stops)
  | factor only induction => exact expression_alone rfl (induction (stopsAt_factor rest)) stops
  | product left star right leftInduction rightInduction =>
      have leftRead := leftInduction (stopsAt_factor (⟨.star, star⟩ :: (right.lexemes ++ rest)))
      rw [Derivation.lexemes, List.append_assoc]
      exact expression_joined rfl leftRead rfl (rightInduction stops)
  | parentheses opening inner closing induction =>
      have innerRead := induction (stopsAt_cons ⟨.rightParen, closing⟩ rfl rest)
      rw [Derivation.lexemes, List.cons_append, List.append_assoc]
      exact expression_parentheses _ rfl innerRead ⟨by simp, rfl⟩
  | signed sign isSign operand induction =>
      have sign_isSign : sign.token.isSign = true := by
        rcases isSign with token | token <;> rw [token] <;> rfl
      have notLeast := leastLiteral?_eq_none sign operand rest
      rcases induction stops with ⟨shorter, read⟩
      rw [Derivation.lexemes, List.cons_append, expression_sign sign sign_isSign notLeast, read]
      exact ⟨_, rfl⟩
  | literal digits span value reads =>
      rw [Derivation.lexemes, List.cons_append, expression_int _ rfl]
      simp only [Grammar.literal, reads]
      exact ⟨_, rfl⟩
  | least minus digits span reads =>
      have isLeast : isLeastMagnitude digits = true := by simp [isLeastMagnitude, reads]
      exact expression_least (if_pos isLeast)
  | identifier name span => exact expression_ident _ rfl rest

/-! ## Deriving what is read -/

theorem eq_of_expect_eq_done {token : Token} {input rest : List Lexeme} {span : Span} {shorter}
    (found : expect token input = .done span rest shorter) : input = ⟨token, span⟩ :: rest := by
  cases input with
  | nil => simp [expect] at found
  | cons lexeme tail =>
      simp only [expect] at found
      split at found
      · next same =>
          simp only [Outcome.done.injEq] at found
          rw [← same, ← found.1, ← found.2]
      · contradiction

theorem eq_of_leastLiteral?_eq_some {input rest : List Lexeme} {least : Expression}
    (found : leastLiteral? input = some (least, rest)) :
    ∃ minus digits span, input = ⟨.minus, minus⟩ :: ⟨.int digits, span⟩ :: rest ∧
      Integer.ofText? ("-" ++ digits) = some Int64.minValue ∧
      least = .integer Int64.minValue (spanning minus span) := by
  unfold leastLiteral? at found
  split at found
  · next minus digits span tail =>
      split at found
      · next isLeast =>
          simp only [Option.some.injEq, Prod.mk.injEq] at found
          rcases found with ⟨rfl, rfl⟩
          exact ⟨minus, digits, span, rfl, eq_of_beq isLeast, rfl⟩
      · contradiction
  · contradiction

/-- Whatever was read has a derivation. -/
def Derived (layer : Layer) {input : List Lexeme} : Outcome Expression input → Prop
  | .done tree rest _ =>
      ∃ derivation : Derivation layer, derivation.lexemes ++ rest = input ∧ derivation.tree = tree
  | .failed _ _ => True

theorem derived_alone {layer tighter : Layer} (operand : layer.operand? = some tighter)
    {input : List Lexeme} {outcome : Outcome Expression input}
    (derived : Derived tighter outcome) : Derived layer outcome := by
  cases outcome with
  | failed error rest => trivial
  | done tree rest shorter =>
      rcases derived with ⟨derivation, lexemes, tree⟩
      cases layer with
      | sum =>
          have same : Layer.product = tighter := Option.some.inj operand
          subst same
          exact ⟨.term derivation, lexemes, tree⟩
      | product =>
          have same : Layer.factor = tighter := Option.some.inj operand
          subst same
          exact ⟨.factor derivation, lexemes, tree⟩
      | factor => simp [Layer.operand?] at operand

theorem derived_joined {layer tighter : Layer} (operand : layer.operand? = some tighter)
    {operator : Lexeme} (joins : layer.joins operator.token = true)
    (left : Derivation tighter) (right : Derivation layer) :
    ∃ derivation : Derivation layer,
      derivation.lexemes = left.lexemes ++ operator :: right.lexemes ∧
      derivation.tree = .binary operator.token left.tree right.tree
        (spanning left.tree.span right.tree.span) := by
  rcases operator with ⟨token, span⟩
  cases layer with
  | sum =>
      have same : Layer.product = tighter := Option.some.inj operand
      subst same
      have additive : token = .plus ∨ token = .minus := by
        cases token <;> simp [Layer.joins] at joins ⊢
      exact ⟨.sum left ⟨token, span⟩ additive right, rfl, rfl⟩
  | product =>
      have same : Layer.factor = tighter := Option.some.inj operand
      subst same
      have isStar : token = .star := by
        cases token <;> simp [Layer.joins] at joins ⊢
      subst isStar
      exact ⟨.product left span right, rfl, rfl⟩
  | factor => simp [Layer.operand?] at operand

theorem derived_literal {digits : String} {span : Span} {rest : List Lexeme} :
    Derived .factor (literal (⟨.int digits, span⟩ :: rest)) := by
  simp only [literal]
  split
  · next value reads => exact ⟨.literal digits span value reads, rfl, rfl⟩
  · trivial

theorem derived_underSign {sign : Lexeme} (isSign : sign.token.isSign = true)
    {input : List Lexeme} {outcome : Outcome Expression input}
    (derived : Derived .factor outcome) : Derived .factor (underSign sign outcome) := by
  cases outcome with
  | failed error rest => trivial
  | done operand rest shorter =>
      rcases derived with ⟨derivation, rfl, rfl⟩
      exact ⟨.signed sign (Token.eq_of_isSign isSign) derivation, rfl, rfl⟩

theorem expression_derived (layer : Layer) (input : List Lexeme) :
    Derived layer (expression layer input) := by
  fun_induction expression layer input with
  | case1 layer input tighter operand error rest read induction => trivial
  | case2 layer input tighter operand left shorter read induction =>
      rw [read] at induction
      exact derived_alone operand induction
  | case3 => trivial
  | case4 layer input tighter operand left operator rest shorter readLeft joins right
      final further readRight leftInduction rightInduction =>
      rw [readLeft] at leftInduction
      rw [readRight] at rightInduction
      rcases leftInduction with ⟨leftDerivation, rfl, rfl⟩
      rcases rightInduction with ⟨rightDerivation, rfl, rfl⟩
      rcases derived_joined operand joins leftDerivation rightDerivation with
        ⟨derivation, lexemes, tree⟩
      refine ⟨derivation, ?_, tree⟩
      rw [lexemes, List.append_assoc, List.cons_append]
  | case5 layer input tighter operand left operator rest shorter read notJoins induction =>
      rw [read] at induction
      exact derived_alone operand induction
  | case6 => trivial
  | case7 => trivial
  | case8 => trivial
  | case9 layer isFactor first rest token inner middle shorter read closing final further
      closed induction =>
      rw [read] at induction
      rcases induction with ⟨derivation, rfl, rfl⟩
      cases eq_factor_of_operand? isFactor
      cases eq_of_expect_eq_done closed
      rcases first with ⟨_, opening⟩
      subst token
      exact ⟨.parentheses opening derivation closing, by simp [Derivation.lexemes], rfl⟩
  | case10 layer isFactor first rest digits token =>
      cases eq_factor_of_operand? isFactor
      rcases first with ⟨_, span⟩
      subst token
      exact derived_literal
  | case11 layer isFactor first rest name token =>
      cases eq_factor_of_operand? isFactor
      rcases first with ⟨_, span⟩
      subst token
      exact ⟨.identifier name span, rfl, rfl⟩
  | case12 layer isFactor first rest isSign least final found =>
      cases eq_factor_of_operand? isFactor
      rcases eq_of_leastLiteral?_eq_some found with ⟨minus, digits, span, equal, reads, rfl⟩
      exact ⟨.least minus digits span reads, equal.symm, rfl⟩
  | case13 layer isFactor first rest isSign absent _ _ _ induction =>
      cases eq_factor_of_operand? isFactor
      exact derived_underSign isSign induction
  | case14 => trivial

theorem exists_derivation_of_expression {layer : Layer} {input rest : List Lexeme}
    {tree : Expression} {shorter} (read : expression layer input = .done tree rest shorter) :
    ∃ derivation : Derivation layer, derivation.lexemes ++ rest = input ∧
      derivation.tree = tree := by
  have derived := expression_derived layer input
  rwa [read] at derived

end Grammar

end Abacus
