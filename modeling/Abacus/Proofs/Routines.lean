import Abacus.Proofs.Guards

/-! # Routines of a parser

Here the current token of a parser has a place of its own, apart from the tokens behind it. A
routine may take it out of its place and put it back, so there are states without a current token
in which tokens are left. The routines call each other only up to a limit, and beyond it they give
nothing. Where the place of the current token is filled and the limit is high enough for the
tokens, the routines read what a parser reads. -/

namespace Abacus

open Grammar

/-- A parser with its current token apart from the tokens behind it. -/
structure BufferedParser where
  current : Option Lexeme
  buffer : List Lexeme
  failed : Bool
deriving DecidableEq

namespace BufferedParser

def remaining (state : BufferedParser) : List Lexeme := state.current.toList ++ state.buffer

/-- The parser with the same tokens in one row. -/
def parser (state : BufferedParser) : Parser := ⟨state.remaining, state.failed⟩

/-- There is a current token, or none at all. -/
def Filled (state : BufferedParser) : Prop := state.current = none → state.buffer = []

def take (state : BufferedParser) : Option Lexeme × BufferedParser :=
  (state.current, { state with current := none })

/-- Takes the current token. The one behind it becomes the current one. -/
def advance (state : BufferedParser) : Option Lexeme × BufferedParser :=
  (state.take.1, { state with current := state.buffer.head?, buffer := state.buffer.tail })

def hasStatement (state : BufferedParser) : Bool := !state.failed && !state.buffer.isEmpty

/-- Whether a minus sign and a numeral behind it make the least integer. -/
def leastAhead (state : BufferedParser) : Bool :=
  state.current.any (·.token == .minus) &&
    match state.buffer.head? with
    | some ⟨.int digits, _⟩ => Grammar.isLeastMagnitude digits
    | _ => false

/-! ## Routines -/

/-- Gives a value or an error and the state afterwards, or nothing at all if its calls reach their
limit. -/
def Routine (α : Type) : Type := BufferedParser → Option (Except SyntaxError α × BufferedParser)

instance : Monad Routine where
  pure value := fun state => some (.ok value, state)
  bind first next := fun state =>
    match first state with
    | none => none
    | some (.error error, after) => some (.error error, after)
    | some (.ok value, after) => next value after

def fail (error : SyntaxError) : Routine α := fun state => some (.error error, state)

def atLimit : Routine α := fun _ => none

def look : Routine BufferedParser := fun state => some (.ok state, state)

def next : Routine (Option Lexeme) := fun state => some (.ok state.advance.1, state.advance.2)

/-- Takes the given token. Another one is put back. -/
def expect (token : Token) : Routine Span := fun state =>
  match state.take with
  | (none, emptied) => some (.error .unexpectedEnd, emptied)
  | (some lexeme, emptied) =>
      if lexeme.token = token then some (.ok lexeme.span, emptied.advance.2)
      else
        some (.error (.unexpected lexeme [token.quoted]), { emptied with current := some lexeme })

/-- Takes a name. Another token is put back. -/
def expectName : Routine (String × Span) := fun state =>
  match state.take with
  | (none, emptied) => some (.error .unexpectedEnd, emptied)
  | (some ⟨.ident name, span⟩, emptied) => some (.ok (name, span), emptied.advance.2)
  | (some lexeme, emptied) =>
      some (.error (.unexpected lexeme ["an identifier"]), { emptied with current := some lexeme })

def literal : Routine Expression := do
  match ← next with
  | none => fail .unexpectedEnd
  | some ⟨.int digits, span⟩ =>
      match Integer.ofText? digits with
      | some value => return .integer value span
      | none => fail ⟨.literalOutOfRange digits, span⟩
  | some lexeme => fail (.unexpected lexeme ["an integer literal"])

/-- Takes a token of a kind and the operand behind it, and puts the two together. -/
def operandBehind (isDue : Token → Bool) (expected : String) (operand : Routine Expression)
    (build : Lexeme → Expression → Expression) : Routine Expression := do
  match ← next with
  | none => fail .unexpectedEnd
  | some first =>
      if isDue first.token then
        let value ← operand
        return build first value
      else fail (.unexpected first [expected])

/-- Takes an operator and what stands on its right. -/
def joined (left : Expression) (right : Routine Expression) : Routine Expression :=
  operandBehind Token.isOperator "an operator" right fun operator value =>
    .binary operator.token left value (spanning left.span value.span)

/-- Looks behind the first operand for an operator of the layer. -/
def chain (layer : Layer) (left : Expression) (right : Routine Expression) :
    Routine Expression := do
  if (← look).current.any (layer.joins ·.token) then joined left right else return left

/-- Takes a sign and what stands under it. -/
def underSign (operand : Routine Expression) : Routine Expression :=
  operandBehind Token.isSign "`-` or `+`" operand fun sign value =>
    .unary sign.token value (spanning sign.span value.span)

/-- Takes a minus sign and a numeral as the least integer. -/
def leastLiteral : Routine Expression := do
  let sign ← expect .minus
  let numeral ← next
  return .integer Int64.minValue ⟨sign.start, numeral.elim sign.start (·.span.stop)⟩

/-- Takes a factor, given what reads in parentheses and under a sign. -/
def factor (sum operand : Routine Expression) : Routine Expression := do
  let state ← look
  match state.current with
  | none => fail .unexpectedEnd
  | some first =>
      match first.token with
      | .leftParen =>
          let opening ← expect .leftParen
          let inner ← sum
          let closing ← expect .rightParen
          return .nested inner (spanning opening closing)
      | .int _ => literal
      | .ident _ =>
          let (name, span) ← expectName
          return .identifier name span
      | _ =>
          if first.token.isSign then
            if state.leastAhead then leastLiteral else underSign operand
          else fail (.unexpected first factorStarts)

/-- Takes an expression of the given layer. The limit is for calls within calls. -/
def expression : Layer → Nat → Routine Expression
  | _, 0 => atLimit
  | layer, limit + 1 =>
      match layer.operand? with
      | some tighter => do
          let left ← expression tighter limit
          chain layer left (expression layer limit)
      | none => factor (expression .sum limit) (expression .factor limit)

def signed (limit : Nat) : Routine Expression := underSign (expression .factor limit)

def assignment (limit : Nat) : Routine Assignment := do
  match (← look).current with
  | none => fail .unexpectedEnd
  | some ⟨.ident _, _⟩ =>
      let (name, nameSpan) ← expectName
      let _ ← expect .equals
      let value ← expression .sum limit
      let closing ← expect .semicolon
      return ⟨name, nameSpan, value, spanning nameSpan closing⟩
  | some first => fail ⟨.notAnAssignment first.token, first.span⟩

/-- Takes statements as long as one is due. The limit is for their number as well. -/
def statements : Nat → Routine (List Assignment)
  | 0 => atLimit
  | limit + 1 => do
      if (← look).hasStatement then
        let first ← assignment limit
        let further ← statements limit
        return first :: further
      else return []

def readProgram (limit : Nat) : Routine Program := do
  return .ofStatements (← statements limit)

/-- Ends the parser's work if the last step failed. -/
def sealed : Except SyntaxError α × BufferedParser → Except SyntaxError α × BufferedParser
  | (.ok value, state) => (.ok value, state)
  | (.error error, state) => (.error error, { state with failed := true })

def program (limit : Nat) : Routine Program := fun state => (readProgram limit state).map sealed

/-- A limit that is too low is reached. -/
example : expression .sum 2 ⟨some ⟨.int "1", ⟨0, 1⟩⟩, [], false⟩ = none := rfl

/-! ## What the routines read -/

/-- The state that holds tokens in a row. -/
def holding (failed : Bool) (input : List Lexeme) : BufferedParser :=
  ⟨input.head?, input.tail, failed⟩

/-- On the tokens of the outcome, the routine gives what the outcome says. -/
def Reads (routine : Routine α) {input : List Lexeme} (outcome : Outcome α input) : Prop :=
  ∀ failed, routine (holding failed input) = some (outcome.result, holding failed outcome.rest)

theorem bind_of_ok {first : Routine α} {further : α → Routine β} {state after : BufferedParser}
    {value : α} (read : first state = some (.ok value, after)) :
    (first >>= further) state = further value after := by
  simp only [bind, read]

theorem bind_of_error {first : Routine α} {further : α → Routine β}
    {state after : BufferedParser} {error : SyntaxError}
    (read : first state = some (.error error, after)) :
    (first >>= further) state = some (.error error, after) := by
  simp only [bind, read]

namespace Reads

variable {first : Routine α} {further : α → Routine β} {input rest : List Lexeme}
  {outcome : Outcome α input}

theorem bind_done (reads : Reads first outcome) {value : α} {shorter}
    (read : outcome = .done value rest shorter) (failed : Bool) :
    (first >>= further) (holding failed input) = further value (holding failed rest) := by
  subst read
  exact bind_of_ok (reads failed)

theorem bind_failed (reads : Reads first outcome) {error : SyntaxError}
    (read : outcome = .failed error rest) (failed : Bool) :
    (first >>= further) (holding failed input) = some (.error error, holding failed rest) := by
  subst read
  exact bind_of_error (reads failed)

end Reads

theorem reads_expect (token : Token) (input : List Lexeme) :
    Reads (expect token) (Grammar.expect token input) := by
  intro failed
  cases input with
  | nil => rfl
  | cons lexeme rest =>
      rw [Grammar.expect]
      by_cases same : lexeme.token = token
      · rw [if_pos same]
        exact if_pos same
      · rw [if_neg same]
        exact if_neg same

theorem reads_expectName (input : List Lexeme) : Reads expectName (Grammar.expectName input) := by
  intro failed
  match input with
  | [] => rfl
  | ⟨token, span⟩ :: rest => cases token <;> rfl

theorem reads_literal (input : List Lexeme) : Reads literal (Grammar.literal input) := by
  intro failed
  match input with
  | [] => rfl
  | ⟨token, span⟩ :: rest =>
      cases token with
      | int digits =>
          rw [Grammar.literal, literal, bind_of_ok rfl]
          change (match Integer.ofText? digits with
            | some value => return .integer value span
            | none => fail ⟨.literalOutOfRange digits, span⟩ : Routine Expression) _ = _
          cases Integer.ofText? digits <;> rfl
      | _ => rfl

section Operands

variable {isDue : Token → Bool} {first : Lexeme} (expected : String)
  (operand : Routine Expression) (build : Lexeme → Expression → Expression) (failed : Bool)
  (rest : List Lexeme)

theorem operandBehind_of_due (due : isDue first.token = true) :
    operandBehind isDue expected operand build (holding failed (first :: rest)) =
      (operand >>= fun value => pure (build first value)) (holding failed rest) := by
  rw [operandBehind, bind_of_ok rfl]
  change (if isDue first.token then _ else _ : Routine Expression) _ = _
  rw [if_pos due]
  rfl

theorem operandBehind_of_not_due (notDue : ¬ isDue first.token = true) :
    operandBehind isDue expected operand build (holding failed (first :: rest)) =
      some (.error (.unexpected first [expected]), holding failed rest) := by
  rw [operandBehind, bind_of_ok rfl]
  change (if isDue first.token then _ else _ : Routine Expression) _ = _
  rw [if_neg notDue]
  rfl

end Operands

theorem reads_underSign {sign : Lexeme} (isSign : sign.token.isSign = true)
    {operand : Routine Expression} {input : List Lexeme} {outcome : Outcome Expression input}
    (reads : Reads operand outcome) :
    Reads (underSign operand) (Grammar.underSign sign outcome) := by
  intro failed
  rw [underSign, operandBehind_of_due _ _ _ _ _ isSign]
  cases outcome with
  | done value rest shorter => exact reads.bind_done rfl failed
  | failed error rest => exact reads.bind_failed rfl failed

theorem chain_joined {layer : Layer} {operator : Lexeme}
    (joins : layer.joins operator.token = true) (left : Expression) {right : Routine Expression}
    {input rest : List Lexeme} (shorter : (operator :: rest).length < input.length)
    {outcome : Outcome Expression rest} (reads : Reads right outcome) (failed : Bool) :
    chain layer left right (holding failed (operator :: rest)) =
      some ((Guarded.underOperator left operator shorter outcome).result,
        holding failed (Guarded.underOperator left operator shorter outcome).rest) := by
  rw [chain, bind_of_ok rfl]
  change (if layer.joins operator.token then _ else _ : Routine Expression) _ = _
  rw [if_pos joins, joined,
    operandBehind_of_due _ _ _ _ _ (Guarded.isOperator_of_joins joins)]
  cases outcome with
  | done value rest further => exact reads.bind_done rfl failed
  | failed error rest => exact reads.bind_failed rfl failed

theorem chain_alone {layer : Layer} {rest : List Lexeme}
    (stops : ∀ lexeme ∈ rest.head?, layer.joins lexeme.token = false) (left : Expression)
    (right : Routine Expression) (failed : Bool) :
    chain layer left right (holding failed rest) = some (.ok left, holding failed rest) := by
  rw [chain, bind_of_ok rfl]
  cases rest with
  | nil => rfl
  | cons lexeme rest =>
      change (if layer.joins lexeme.token then _ else _ : Routine Expression) _ = _
      rw [stops lexeme rfl]
      rfl

theorem leastAhead_holding (failed : Bool) (input : List Lexeme) :
    (holding failed input).leastAhead = (leastLiteral? input).isSome := by
  match input with
  | [] => rfl
  | [⟨token, sign⟩] => cases token <;> rfl
  | ⟨token, sign⟩ :: ⟨numeral, span⟩ :: rest =>
      cases token with
      | minus =>
          cases numeral with
          | int digits =>
              simp only [leastLiteral?]
              change isLeastMagnitude digits = _
              cases isLeastMagnitude digits <;> rfl
          | _ => rfl
      | _ => rfl

theorem leastLiteral_holding {input rest : List Lexeme} {least : Expression}
    (found : leastLiteral? input = some (least, rest)) (failed : Bool) :
    leastLiteral (holding failed input) = some (.ok least, holding failed rest) := by
  rcases eq_of_leastLiteral?_eq_some found with ⟨minus, digits, span, rfl, _, rfl⟩
  rfl

section Factors

variable {sum operand : Routine Expression} {rest : List Lexeme}

theorem reads_factor_parentheses (opening : Span)
    (reads : Reads sum (Grammar.expression .sum rest)) :
    Reads (factor sum operand) (Grammar.expression .factor (⟨.leftParen, opening⟩ :: rest)) := by
  intro failed
  have opened : factor sum operand (holding failed (⟨.leftParen, opening⟩ :: rest)) =
      (do
        let inner ← sum
        let closing ← expect .rightParen
        return .nested inner (spanning opening closing) : Routine Expression)
        (holding failed rest) := rfl
  rw [opened]
  cases read : Grammar.expression .sum rest with
  | failed error left =>
      rw [expression_inner_failed _ rfl read]
      exact reads.bind_failed read failed
  | done inner middle shorter =>
      rw [reads.bind_done read]
      have closes := reads_expect .rightParen middle
      cases found : Grammar.expect .rightParen middle with
      | failed error left =>
          rw [expression_unclosed _ rfl ⟨shorter, read⟩ found]
          exact closes.bind_failed found failed
      | done closing left further =>
          rcases expression_parentheses ⟨.leftParen, opening⟩ rfl ⟨shorter, read⟩
            ⟨further, found⟩ with ⟨_, equal⟩
          rw [equal]
          exact closes.bind_done found failed

theorem reads_factor_sign {sign : Lexeme} (isSign : sign.token.isSign = true)
    (reads : Reads operand (Grammar.expression .factor rest)) :
    Reads (factor sum operand) (Grammar.expression .factor (sign :: rest)) := by
  intro failed
  have signed : factor sum operand (holding failed (sign :: rest)) =
      (if (holding failed (sign :: rest)).leastAhead then leastLiteral
        else underSign operand : Routine Expression) (holding failed (sign :: rest)) := by
    rcases sign with ⟨token, span⟩
    rcases Token.eq_of_isSign isSign with rfl | rfl <;> rfl
  rw [signed, leastAhead_holding]
  cases found : leastLiteral? (sign :: rest) with
  | some pair =>
      rcases expression_least found with ⟨_, equal⟩
      rw [equal]
      exact leastLiteral_holding found failed
  | none =>
      rw [expression_sign sign isSign found]
      exact reads_underSign isSign reads failed

end Factors

theorem reads_factor {sum operand : Routine Expression} {input : List Lexeme}
    (sumReads : ∀ rest, rest.length < input.length → Reads sum (Grammar.expression .sum rest))
    (operandReads : ∀ rest, rest.length < input.length →
      Reads operand (Grammar.expression .factor rest)) :
    Reads (factor sum operand) (Grammar.expression .factor input) := by
  match input with
  | [] =>
      rw [expression_nil]
      exact fun failed => rfl
  | ⟨token, span⟩ :: rest =>
      cases token with
      | leftParen => exact reads_factor_parentheses span (sumReads rest (Nat.lt_succ_self _))
      | minus => exact reads_factor_sign rfl (operandReads rest (Nat.lt_succ_self _))
      | plus => exact reads_factor_sign rfl (operandReads rest (Nat.lt_succ_self _))
      | int digits =>
          rw [expression_int _ rfl]
          exact reads_literal (⟨.int digits, span⟩ :: rest)
      | ident name =>
          rcases expression_ident ⟨.ident name, span⟩ rfl rest with ⟨_, equal⟩
          rw [equal]
          exact fun failed => rfl
      | _ =>
          rw [expression_unexpected _ (by simp) (by simp) (by simp) (by simp [Token.isSign])]
          exact fun failed => rfl

theorem reads_layer {layer tighter : Layer} (operand : layer.operand? = some tighter)
    {limit : Nat} {input : List Lexeme}
    (leftReads : Reads (expression tighter limit) (Grammar.expression tighter input))
    (rightReads : ∀ rest, rest.length < input.length →
      Reads (expression layer limit) (Grammar.expression layer rest)) :
    Reads (expression layer (limit + 1)) (Grammar.expression layer input) := by
  intro failed
  have unfolded : expression layer (limit + 1) =
      expression tighter limit >>= fun left => chain layer left (expression layer limit) := by
    rw [expression]
    simp only [operand]
  rw [unfolded]
  cases read : Grammar.expression tighter input with
  | failed error rest =>
      rw [expression_failed operand read]
      exact leftReads.bind_failed read failed
  | done left rest shorter =>
      rw [leftReads.bind_done read]
      by_cases joins : rest.head?.any (layer.joins ·.token) = true
      · rcases (Option.any_eq_true _ _).mp joins with ⟨operator, head, joins⟩
        rcases List.head?_eq_some_iff.mp head with ⟨behind, rfl⟩
        have chains := chain_joined joins left shorter
          (rightReads behind (Nat.lt_of_succ_lt shorter)) failed
        cases readRight : Grammar.expression layer behind with
        | failed error final =>
            rw [readRight] at chains
            rw [expression_joined_failed operand ⟨shorter, read⟩ joins readRight]
            exact chains
        | done right final further =>
            rw [readRight] at chains
            rcases expression_joined operand ⟨shorter, read⟩ joins ⟨further, readRight⟩ with
              ⟨_, equal⟩
            rw [equal]
            exact chains
      · have stops : ∀ lexeme ∈ rest.head?, layer.joins lexeme.token = false := by
          intro lexeme head
          simpa [Option.mem_def.mp head] using joins
        rcases expression_alone operand ⟨shorter, read⟩ stops with ⟨_, equal⟩
        rw [equal]
        exact chain_alone stops left _ failed

/-- Three calls for each token and one for each layer are enough. -/
theorem reads_expression (layer : Layer) (input : List Lexeme) {limit : Nat}
    (enough : 3 * input.length + layer.depth < limit) :
    Reads (expression layer limit) (Grammar.expression layer input) := by
  induction limit generalizing layer input with
  | zero => contradiction
  | succ limit induction =>
      cases operand : layer.operand? with
      | some tighter =>
          have tightens := Layer.depth_operand?_lt operand
          apply reads_layer operand
          · exact induction tighter input (by omega)
          · intro rest shorter
            exact induction layer rest (by omega)
      | none =>
          cases eq_factor_of_operand? operand
          apply reads_factor
          · intro rest shorter
            exact induction .sum rest (by simp only [Layer.depth] at enough ⊢; omega)
          · intro rest shorter
            exact induction .factor rest (by omega)

theorem reads_signed (input : List Lexeme) {limit : Nat} (enough : 3 * input.length ≤ limit) :
    Reads (signed limit) (Grammar.signed input) := by
  cases input with
  | nil => exact fun failed => rfl
  | cons first rest =>
      rw [Grammar.signed]
      by_cases isSign : first.token.isSign = true
      · rw [if_pos isSign]
        apply reads_underSign isSign
        apply reads_expression
        simp only [List.length_cons, Layer.depth] at enough ⊢
        omega
      · rw [if_neg isSign]
        intro failed
        exact operandBehind_of_not_due _ _ _ _ _ isSign

theorem reads_assignment_named (name : String) (nameSpan : Span) {rest : List Lexeme}
    {limit : Nat} (enough : 3 * rest.length ≤ limit) :
    Reads (assignment limit) (Grammar.assignment (⟨.ident name, nameSpan⟩ :: rest)) := by
  intro failed
  have named : assignment limit (holding failed (⟨.ident name, nameSpan⟩ :: rest)) =
      (do
        let _ ← expect .equals
        let value ← expression .sum limit
        let closing ← expect .semicolon
        return ⟨name, nameSpan, value, spanning nameSpan closing⟩ : Routine Assignment)
        (holding failed rest) := rfl
  rw [named]
  have equalsReads := reads_expect .equals rest
  cases foundEquals : Grammar.expect .equals rest with
  | failed error left =>
      simp only [Grammar.assignment, foundEquals]
      exact equalsReads.bind_failed foundEquals failed
  | done equals middle shorter =>
      rw [equalsReads.bind_done foundEquals]
      have enoughValue : 3 * middle.length + Layer.sum.depth < limit := by
        rw [Layer.depth]
        omega
      have valueReads := reads_expression .sum middle enoughValue
      cases read : Grammar.expression .sum middle with
      | failed error left =>
          simp only [Grammar.assignment, foundEquals, read]
          exact valueReads.bind_failed read failed
      | done value behind further =>
          rw [valueReads.bind_done read]
          have closingReads := reads_expect .semicolon behind
          cases foundClosing : Grammar.expect .semicolon behind with
          | failed error left =>
              simp only [Grammar.assignment, foundEquals, read, foundClosing]
              exact closingReads.bind_failed foundClosing failed
          | done closing left final =>
              simp only [Grammar.assignment, foundEquals, read, foundClosing]
              exact closingReads.bind_done foundClosing failed

theorem reads_assignment (input : List Lexeme) {limit : Nat} (enough : 3 * input.length ≤ limit) :
    Reads (assignment limit) (Grammar.assignment input) := by
  match input with
  | [] => exact fun failed => rfl
  | ⟨token, span⟩ :: rest =>
      cases token with
      | ident name =>
          apply reads_assignment_named name span
          rw [List.length_cons] at enough
          omega
      | _ => exact fun failed => rfl

theorem hasStatement_holding (failed : Bool) (input : List Lexeme) :
    (holding failed input).hasStatement = (!failed && Grammar.hasStatement input) := by
  cases input <;> rfl

theorem statements_of_not_hasStatement {state : BufferedParser}
    (finished : state.hasStatement = false) (limit : Nat) :
    statements (limit + 1) state = some (.ok [], state) := by
  rw [statements, bind_of_ok rfl, finished]
  rfl

theorem statements_of_hasStatement {state : BufferedParser} (due : state.hasStatement = true)
    (limit : Nat) :
    statements (limit + 1) state =
      (do
        let first ← assignment limit
        let further ← statements limit
        return first :: further : Routine (List Assignment)) state := by
  rw [statements, bind_of_ok rfl, due]
  rfl

theorem statements_holding (input : List Lexeme) {limit : Nat}
    (enough : 3 * input.length < limit) :
    statements limit (holding false input) =
      some ((Grammar.statements input).2.1.map fun _ => (Grammar.statements input).1,
        holding false (Grammar.statements input).2.2) := by
  induction limit generalizing input with
  | zero => contradiction
  | succ limit induction =>
      have dueHolding := hasStatement_holding false input
      have reads := reads_assignment input (Nat.le_of_lt_succ enough)
      cases due : Grammar.hasStatement input with
      | false =>
          rw [due] at dueHolding
          rw [Grammar.statements_of_not_hasStatement due]
          exact statements_of_not_hasStatement dueHolding limit
      | true =>
          rw [due] at dueHolding
          rw [statements_of_hasStatement dueHolding]
          cases read : Grammar.assignment input with
          | failed error rest =>
              rw [Grammar.statements, if_pos due, read]
              exact reads.bind_failed read false
          | done first rest shorter =>
              rw [reads.bind_done read, statements_of_readTo (.cons due ⟨shorter, read⟩ .nil)]
              have further := induction rest (by omega)
              cases result : (Grammar.statements rest).2.1 with
              | error error =>
                  rw [result] at further
                  exact bind_of_error further
              | ok done =>
                  rw [result] at further
                  exact bind_of_ok further

/-! ## Programs -/

/-- The state of a parser. -/
def ofParser (parser : Parser) : BufferedParser := holding parser.failed parser.remaining

theorem readProgram_ofParser (parser : Parser) {limit : Nat}
    (enough : 3 * parser.remaining.length < limit) :
    readProgram limit (ofParser parser) =
      some (parser.readProgram.1, ofParser parser.readProgram.2) := by
  rcases parser with ⟨input, failed⟩
  cases failed with
  | true =>
      obtain ⟨limit, rfl⟩ := Nat.exists_eq_add_one_of_ne_zero (Nat.ne_zero_of_lt enough)
      have finished : (holding true input).hasStatement = false := hasStatement_holding true input
      exact bind_of_ok (statements_of_not_hasStatement finished limit)
  | false =>
      have unfolded : Parser.readProgram ⟨input, false⟩ =
          ((Grammar.statements input).2.1.map fun _ => .ofStatements (Grammar.statements input).1,
            ⟨(Grammar.statements input).2.2, false⟩) := rfl
      have read := statements_holding input enough
      rw [unfolded, readProgram]
      cases result : (Grammar.statements input).2.1 with
      | error error =>
          rw [result] at read
          exact bind_of_error read
      | ok done =>
          rw [result] at read
          exact bind_of_ok read

theorem program_ofParser (parser : Parser) {limit : Nat}
    (enough : 3 * parser.remaining.length < limit) :
    program limit (ofParser parser) = some (parser.program.1, ofParser parser.program.2) := by
  rw [program, readProgram_ofParser parser enough, Parser.program]
  generalize parser.readProgram = step
  rcases step with ⟨result, after⟩
  cases result <;> rfl

end BufferedParser

end Abacus
