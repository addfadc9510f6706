import Abacus.Grammar

/-! # The steps of reading

What `expression` does at the front of its input, one rule at a time. Everything
about reading is proved from these equations. -/

namespace Abacus

theorem Token.eq_of_isSign {token : Token} (isSign : token.isSign = true) :
    token = .minus ∨ token = .plus := by
  cases token <;> first | contradiction | simp

/-- The outcome is the given value, and the given tokens are left. -/
def Outcome.Gives (outcome : Outcome α input) (value : α) (rest : List Lexeme) : Prop :=
  ∃ shorter, outcome = .done value rest shorter

namespace Grammar

/-! ## Chains -/

section Chains

variable {layer tighter : Layer} {input middle rest : List Lexeme} {left right : Expression}
  {operator : Lexeme} {error : SyntaxError}

theorem expression_failed (operand : layer.operand? = some tighter)
    (read : expression tighter input = .failed error rest) :
    expression layer input = .failed error rest := by
  rw [expression.eq_def]
  split
  · next found =>
      have same : tighter = _ := Option.some.inj (operand.symm.trans found)
      subst same
      rw [read]
  · next absent => simp [operand] at absent

theorem expression_alone (operand : layer.operand? = some tighter)
    (read : (expression tighter input).Gives left rest)
    (stops : ∀ lexeme ∈ rest.head?, layer.joins lexeme.token = false) :
    (expression layer input).Gives left rest := by
  rcases read with ⟨shorter, equal⟩
  refine ⟨shorter, ?_⟩
  rw [expression.eq_def]
  split
  · next found =>
      have same : tighter = _ := Option.some.inj (operand.symm.trans found)
      subst same
      rw [equal]
      cases rest with
      | nil => rfl
      | cons lexeme rest => simp [stops lexeme rfl]
  · next absent => simp [operand] at absent

theorem expression_joined (operand : layer.operand? = some tighter)
    (readLeft : (expression tighter input).Gives left (operator :: middle))
    (joins : layer.joins operator.token = true)
    (readRight : (expression layer middle).Gives right rest) :
    (expression layer input).Gives
      (.binary operator.token left right (spanning left.span right.span)) rest := by
  rcases readLeft with ⟨shorter, equalLeft⟩
  rcases readRight with ⟨further, equalRight⟩
  rw [expression.eq_def]
  split
  · next found =>
      have same : tighter = _ := Option.some.inj (operand.symm.trans found)
      subst same
      rw [equalLeft]
      simp only [joins, if_true, equalRight]
      exact ⟨_, rfl⟩
  · next absent => simp [operand] at absent

theorem expression_joined_failed (operand : layer.operand? = some tighter)
    (readLeft : (expression tighter input).Gives left (operator :: middle))
    (joins : layer.joins operator.token = true)
    (readRight : expression layer middle = .failed error rest) :
    expression layer input = .failed error rest := by
  rcases readLeft with ⟨shorter, equalLeft⟩
  rw [expression.eq_def]
  split
  · next found =>
      have same : tighter = _ := Option.some.inj (operand.symm.trans found)
      subst same
      rw [equalLeft]
      simp only [joins, if_true, readRight]
  · next absent => simp [operand] at absent

end Chains

/-! ## Factors -/

theorem eq_factor_of_operand? {layer : Layer} (tightest : layer.operand? = none) :
    layer = .factor := by
  cases layer <;> simp [Layer.operand?] at tightest ⊢

theorem expression_nil : expression .factor [] = .failed .unexpectedEnd [] := by
  rw [expression]
  rfl

section Parentheses

variable (first : Lexeme) (opens : first.token = .leftParen) {inner : Expression}
  {input middle rest : List Lexeme}
include opens

theorem expression_parentheses {closing : Span}
    (read : (expression .sum input).Gives inner middle)
    (closed : (expect .rightParen middle).Gives closing rest) :
    (expression .factor (first :: input)).Gives
      (.nested inner (spanning first.span closing)) rest := by
  rcases read with ⟨shorter, equal⟩
  rcases closed with ⟨further, found⟩
  rcases first with ⟨_, opening⟩
  subst opens
  rw [expression]
  simp only [Layer.operand?, equal, found]
  exact ⟨_, rfl⟩

theorem expression_inner_failed {error : SyntaxError}
    (read : expression .sum input = .failed error rest) :
    expression .factor (first :: input) = .failed error rest := by
  rcases first with ⟨_, opening⟩
  subst opens
  rw [expression]
  simp only [Layer.operand?, read]

theorem expression_unclosed {error : SyntaxError}
    (read : (expression .sum input).Gives inner middle)
    (unclosed : expect .rightParen middle = .failed error rest) :
    expression .factor (first :: input) = .failed error rest := by
  rcases read with ⟨shorter, equal⟩
  rcases first with ⟨_, opening⟩
  subst opens
  rw [expression]
  simp only [Layer.operand?, equal, unclosed]

end Parentheses

theorem expression_int (first : Lexeme) {digits : String} (token : first.token = .int digits)
    (rest : List Lexeme) : expression .factor (first :: rest) = literal (first :: rest) := by
  rcases first with ⟨_, span⟩
  subst token
  rw [expression]
  rfl

theorem expression_ident (first : Lexeme) {name : String} (token : first.token = .ident name)
    (rest : List Lexeme) :
    (expression .factor (first :: rest)).Gives (.identifier name first.span) rest := by
  rcases first with ⟨_, span⟩
  subst token
  rw [expression]
  exact ⟨_, rfl⟩

theorem expression_least {input rest : List Lexeme} {least : Expression}
    (found : leastLiteral? input = some (least, rest)) :
    (expression .factor input).Gives least rest := by
  match input with
  | [] => simp [leastLiteral?] at found
  | ⟨token, span⟩ :: tail =>
      have isMinus : token = .minus := by
        unfold leastLiteral? at found
        split at found
        · next equal => exact congrArg Lexeme.token (List.cons.inj equal).1
        · contradiction
      subst isMinus
      rw [expression]
      simp only [Layer.operand?, Token.isSign, if_true]
      split
      · next again =>
          rw [found, Option.some.injEq, Prod.mk.injEq] at again
          rcases again with ⟨rfl, rfl⟩
          exact ⟨_, rfl⟩
      · next absent => simp [found] at absent

theorem expression_sign (sign : Lexeme) (isSign : sign.token.isSign = true)
    {input : List Lexeme} (notLeast : leastLiteral? (sign :: input) = none) :
    expression .factor (sign :: input) = underSign sign (expression .factor input) := by
  rw [expression]
  simp only [Layer.operand?]
  split
  · next token => simp [token, Token.isSign] at isSign
  · next token => simp [token, Token.isSign] at isSign
  · next token => simp [token, Token.isSign] at isSign
  · rw [if_pos isSign]
    split
    · next found => simp [notLeast] at found
    · rfl

theorem expression_unexpected (first : Lexeme) (notOpening : first.token ≠ .leftParen)
    (notInt : ∀ digits, first.token ≠ .int digits)
    (notIdent : ∀ name, first.token ≠ .ident name) (notSign : ¬ first.token.isSign = true)
    (rest : List Lexeme) :
    expression .factor (first :: rest) =
      .failed (.unexpected first factorStarts) (first :: rest) := by
  rw [expression]
  simp only [Layer.operand?]
  rw [if_neg notSign]

end Grammar

end Abacus
