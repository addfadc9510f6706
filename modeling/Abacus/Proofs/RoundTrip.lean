import Abacus.Proofs.Acceptance
import Abacus.Proofs.Relocation
import Abacus.Proofs.Spelling

/-! # Programs read back from their texts

The text of a program drops the parentheses of its source and puts every binary node
into parentheses of its own. So the text of an expression is always a factor, and
reading it back gives the same tree up to parentheses and places. -/

namespace Abacus

/-! ## Trees up to parentheses and places -/

namespace Expression

/-- The tree with every expression in parentheses replaced by what is in them. -/
def unnested : Expression → Expression
  | identifier name span => .identifier name span
  | integer value span => .integer value span
  | unary operator operand span => .unary operator operand.unnested span
  | binary operator left right span => .binary operator left.unnested right.unnested span
  | nested inner _ => inner.unnested

def bare (expression : Expression) : Expression :=
  Relocation.erase.expression expression.unnested

theorem bare_unary (operator : Token) (operand : Expression) (span : Span) :
    (unary operator operand span).bare = unary operator operand.bare (.point 0) := rfl

theorem bare_binary (operator : Token) (left right : Expression) (span : Span) :
    (binary operator left right span).bare =
      binary operator left.bare right.bare (.point 0) := rfl

theorem bare_nested (inner : Expression) (span : Span) : (nested inner span).bare = inner.bare :=
  rfl

/-- The trees that a text can be read back from: names are names, and every literal has
a numeral. -/
def isWritable : Expression → Bool
  | identifier name _ => isName name
  | integer value _ => 0 ≤ value.toInt || value == Int64.minValue
  | unary operator operand _ => operator.isSign && operand.isWritable
  | binary operator left right _ =>
      operator.isOperator && left.isWritable && right.isWritable
  | nested inner _ => inner.isWritable

end Expression

namespace Assignment

def unnested (assignment : Assignment) : Assignment :=
  { assignment with value := assignment.value.unnested }

def bare (assignment : Assignment) : Assignment :=
  Relocation.erase.assignment assignment.unnested

theorem bare_mk (name : String) (nameSpan : Span) (value : Expression) (span : Span) :
    bare ⟨name, nameSpan, value, span⟩ = ⟨name, .point 0, value.bare, .point 0⟩ := rfl

def isWritable (assignment : Assignment) : Bool :=
  isName assignment.name && assignment.value.isWritable

end Assignment

namespace Program

def unnested (program : Program) : Program :=
  { program with statements := program.statements.map Assignment.unnested }

def bare (program : Program) : Program :=
  Relocation.erase.program program.unnested

theorem bare_eq (program : Program) :
    program.bare = ⟨program.statements.map Assignment.bare, .point 0⟩ := by
  simp only [bare, unnested, Relocation.program, List.map_map]
  rfl

def isWritable (program : Program) : Bool :=
  program.statements.all Assignment.isWritable

end Program

/-! ## The tokens of a text -/

namespace Expression

def tokens : Expression → List Token
  | identifier name _ => [.ident name]
  | integer value _ =>
      if value.toInt < 0 then [.minus, .int (Text.naturalText value.toInt.natAbs)]
      else [.int (Text.naturalText value.toInt.natAbs)]
  | unary operator operand _ => operator :: operand.tokens
  | binary operator left right _ =>
      .leftParen :: (left.tokens ++ operator :: (right.tokens ++ [.rightParen]))
  | nested inner _ => inner.tokens

/-- What follows does not go on with a name or a numeral. -/
def Delimited (chars : List Char) : Prop := ∀ char ∈ chars.head?, isNamePart char = false

theorem delimited_cons {char : Char} (noPart : isNamePart char = false) (chars : List Char) :
    Delimited (char :: chars) := by
  intro first member
  rw [← Option.some.inj member]
  exact noPart

theorem endsBefore_of_delimited {token : Token} {chars : List Char} (delimited : Delimited chars) :
    ∀ char ∈ chars.head?, token.endsBefore char = true := by
  intro char member
  have noPart := delimited char member
  have noDigit : char.isDigit = false := by
    rw [← Bool.not_eq_true] at noPart ⊢
    exact fun digit => noPart (isNamePart_iff.mpr (.inr digit))
  cases token <;> simp [Token.endsBefore, noPart, noDigit]

theorem isSpelled_of_isOperator {token : Token} (operator : token.isOperator = true) :
    token.isSpelled = true := by
  cases token <;> first | rfl | contradiction

/-- An operator is a symbol, so anything may follow it. -/
theorem endsBefore_of_isOperator {token : Token} (operator : token.isOperator = true)
    (char : Char) : token.endsBefore char = true := by
  cases token <;> first | rfl | contradiction

/-- A negative number is a minus sign and the numeral of its magnitude. -/
def literalTokens (number : Int) : List Token :=
  if number < 0 then [.minus, .int (Text.naturalText number.natAbs)]
  else [.int (Text.naturalText number.natAbs)]

theorem spells_integerText (number : Int) {tokens : List Token} {chars : List Char}
    (rest : Spells tokens chars) (delimited : Delimited chars) :
    Spells (literalTokens number ++ tokens) ((Text.integerText number).toList ++ chars) := by
  have numeral : Spells (.int (Text.naturalText number.natAbs) :: tokens)
      ((Text.naturalText number.natAbs).toList ++ chars) :=
    .token (isNumeral_naturalText _) (endsBefore_of_delimited delimited) rest
  by_cases negative : number < 0
  · rw [literalTokens, if_pos negative, Text.integerText, if_pos negative, String.toList_append,
      List.append_assoc]
    exact .token rfl (fun _ _ => rfl) numeral
  · rw [literalTokens, if_neg negative, Text.integerText, if_neg negative]
    exact numeral

theorem spells_text (expression : Expression) (writable : expression.isWritable = true)
    {tokens : List Token} {chars : List Char} (rest : Spells tokens chars)
    (delimited : Delimited chars) :
    Spells (expression.tokens ++ tokens) (expression.text.toList ++ chars) := by
  induction expression generalizing tokens chars with
  | identifier name span => exact .token writable (endsBefore_of_delimited delimited) rest
  | integer value span => exact spells_integerText value.toInt rest delimited
  | unary operator operand span induction =>
      rw [isWritable, Bool.and_eq_true] at writable
      have operator_isOperator := Token.isOperator_of_isSign writable.1
      have operandSpells := induction writable.2 rest delimited
      rw [Expression.tokens, List.cons_append, text, String.toList_append, List.append_assoc]
      exact .token (isSpelled_of_isOperator operator_isOperator)
        (fun char _ => endsBefore_of_isOperator operator_isOperator char) operandSpells
  | binary operator left right span leftInduction rightInduction =>
      rw [isWritable, Bool.and_eq_true, Bool.and_eq_true] at writable
      rcases writable with ⟨⟨isOperator, leftWritable⟩, rightWritable⟩
      have closing : Spells (.rightParen :: tokens) (')' :: chars) :=
        .token rfl (fun _ _ => rfl) rest
      have rightSpells := rightInduction rightWritable closing (delimited_cons rfl chars)
      have operatorSpells : Spells (operator :: (right.tokens ++ .rightParen :: tokens))
          (operator.text.toList ++ ' ' :: (right.text.toList ++ ')' :: chars)) :=
        .token (isSpelled_of_isOperator isOperator)
          (fun char _ => endsBefore_of_isOperator isOperator char) (.blank rfl rightSpells)
      have spaced : Spells _ (' ' :: _) := .blank rfl operatorSpells
      have leftSpells := leftInduction leftWritable spaced (delimited_cons rfl _)
      have opening : Spells (.leftParen :: _) ('(' :: _) := .token rfl (fun _ _ => rfl) leftSpells
      simpa [Expression.tokens, text] using opening
  | nested inner span induction => exact induction writable rest delimited

end Expression

namespace Assignment

def tokens (assignment : Assignment) : List Token :=
  .ident assignment.name :: .equals :: (assignment.value.tokens ++ [.semicolon])

theorem spells_text (assignment : Assignment) (writable : assignment.isWritable = true)
    {tokens : List Token} {chars : List Char} (rest : Spells tokens chars) :
    Spells (assignment.tokens ++ tokens) (assignment.text.toList ++ chars) := by
  rw [isWritable, Bool.and_eq_true] at writable
  have closing : Spells (.semicolon :: tokens) (';' :: chars) := .token rfl (fun _ _ => rfl) rest
  have value :=
    assignment.value.spells_text writable.2 closing (Expression.delimited_cons rfl chars)
  have equals : Spells (.equals :: _) ('=' :: ' ' :: _) :=
    .token rfl (fun _ _ => rfl) (.blank rfl value)
  have whole : Spells (.ident assignment.name :: _) (assignment.name.toList ++ ' ' :: _) :=
    .token writable.1 (Expression.endsBefore_of_delimited (Expression.delimited_cons rfl _))
      (.blank rfl equals)
  simpa [Assignment.tokens, text] using whole

end Assignment

namespace Program

def tokens (program : Program) : List Token :=
  program.statements.flatMap Assignment.tokens

theorem spells_text (program : Program) (writable : program.isWritable = true) :
    Spells program.tokens program.text.toList := by
  rcases program with ⟨statements, span⟩
  rw [isWritable, List.all_eq_true] at writable
  rw [tokens, text, String.toList_intercalate]
  induction statements with
  | nil => exact .nil
  | cons first further induction =>
      have furtherSpells :=
        induction fun assignment member => writable assignment (List.mem_cons_of_mem first member)
      have firstWritable := writable first List.mem_cons_self
      cases further with
      | nil => simpa using first.spells_text firstWritable .nil
      | cons second further =>
          have separated : Spells _ ('\n' :: _) := .blank rfl furtherSpells
          simpa using first.spells_text firstWritable separated

end Program

/-! ## Reading the tokens back

Wherever the tokens of a tree stand, they are derived, and the derivation stands for
the tree up to parentheses and places. -/

namespace Expression

theorem exists_joined {operator : Lexeme} (isOperator : operator.token.isOperator = true)
    (left right : Derivation .factor) :
    ∃ derivation : Derivation .sum,
      derivation.lexemes = left.lexemes ++ operator :: right.lexemes ∧
      derivation.tree = .binary operator.token left.tree right.tree
        (Grammar.spanning left.tree.span right.tree.span) := by
  rcases operator with ⟨token, span⟩
  by_cases star : token = .star
  · subst star
    exact ⟨.term (.product left span (.factor right)), rfl, rfl⟩
  · have additive : token = .plus ∨ token = .minus := by
      cases token <;> first | contradiction | simp
    exact ⟨.sum (.factor left) ⟨token, span⟩ additive (.term (.factor right)), rfl, rfl⟩

theorem exists_derivation_of_tokens (expression : Expression)
    (writable : expression.isWritable = true) {lexemes : List Lexeme}
    (spelled : lexemes.map (·.token) = expression.tokens) :
    ∃ derivation : Derivation .factor, derivation.lexemes = lexemes ∧
      derivation.tree.bare = expression.bare := by
  induction expression generalizing lexemes with
  | identifier name span =>
      rcases List.map_eq_singleton_iff.mp spelled with ⟨⟨token, place⟩, rfl, same⟩
      cases same
      exact ⟨.identifier name place, rfl, rfl⟩
  | integer value span =>
      by_cases negative : value.toInt < 0
      · have least : value = Int64.minValue := by
          simp only [isWritable, Bool.or_eq_true, decide_eq_true_eq, beq_iff_eq] at writable
          exact writable.resolve_left (by omega)
        have reads : Integer.ofText? ("-" ++ Text.naturalText value.toInt.natAbs) =
            some value := by
          rw [Integer.ofText?_minus_naturalText, Integer.ofInt?_eq_some_iff]
          omega
        rw [Expression.tokens, if_pos negative] at spelled
        rcases List.map_eq_cons_iff.mp spelled with ⟨⟨sign, signPlace⟩, rest, rfl, same, behind⟩
        rcases List.map_eq_singleton_iff.mp behind with ⟨⟨token, place⟩, rfl, sameToken⟩
        cases same
        cases sameToken
        subst least
        exact ⟨.least signPlace _ place reads, rfl, rfl⟩
      · rw [Expression.tokens, if_neg negative] at spelled
        rcases List.map_eq_singleton_iff.mp spelled with ⟨⟨token, place⟩, rfl, same⟩
        cases same
        have reads : Integer.ofText? (Text.naturalText value.toInt.natAbs) = some value := by
          rw [Integer.ofText?_naturalText, Integer.ofInt?_eq_some_iff]
          omega
        exact ⟨.literal _ place value reads, rfl, rfl⟩
  | unary operator operand span induction =>
      rw [isWritable, Bool.and_eq_true] at writable
      rcases List.map_eq_cons_iff.mp spelled with ⟨⟨sign, place⟩, rest, rfl, same, behind⟩
      cases same
      rcases induction writable.2 behind with ⟨derivation, rfl, bare⟩
      refine ⟨.signed ⟨sign, place⟩ (Token.eq_of_isSign writable.1) derivation, rfl, ?_⟩
      rw [Derivation.tree, bare_unary, bare_unary, bare]
  | binary operator left right span leftInduction rightInduction =>
      rw [isWritable, Bool.and_eq_true, Bool.and_eq_true] at writable
      rcases writable with ⟨⟨isOperator, leftWritable⟩, rightWritable⟩
      rcases List.map_eq_cons_iff.mp spelled with ⟨⟨_, opening⟩, inner, rfl, rfl, innerSpelled⟩
      rcases List.map_eq_append_iff.mp innerSpelled with
        ⟨leftLexemes, behindLeft, rfl, leftSpelled, behindLeftSpelled⟩
      rcases List.map_eq_cons_iff.mp behindLeftSpelled with
        ⟨⟨_, place⟩, behindOperator, rfl, rfl, behindOperatorSpelled⟩
      rcases List.map_eq_append_iff.mp behindOperatorSpelled with
        ⟨rightLexemes, behindRight, rfl, rightSpelled, closingSpelled⟩
      rcases List.map_eq_singleton_iff.mp closingSpelled with ⟨⟨_, closing⟩, rfl, rfl⟩
      rcases leftInduction leftWritable leftSpelled with ⟨leftDerivation, rfl, leftBare⟩
      rcases rightInduction rightWritable rightSpelled with ⟨rightDerivation, rfl, rightBare⟩
      rcases exists_joined isOperator leftDerivation rightDerivation with
        ⟨derivation, derived, tree⟩
      refine ⟨.parentheses opening derivation closing, ?_, ?_⟩
      · simp [Derivation.lexemes, derived]
      · rw [Derivation.tree, tree, bare_nested, bare_binary, bare_binary, leftBare, rightBare]
  | nested inner span induction => exact induction writable spelled

end Expression

namespace Assignment

theorem exists_derivation_of_tokens (assignment : Assignment)
    (writable : assignment.isWritable = true) {lexemes : List Lexeme}
    (spelled : lexemes.map (·.token) = assignment.tokens) :
    ∃ statement : Derivation.Statement, statement.lexemes = lexemes ∧
      statement.tree.bare = assignment.bare := by
  rw [isWritable, Bool.and_eq_true] at writable
  rcases List.map_eq_cons_iff.mp spelled with ⟨⟨_, nameSpan⟩, behindName, rfl, rfl, nameSpelled⟩
  rcases List.map_eq_cons_iff.mp nameSpelled with
    ⟨⟨_, equals⟩, behindEquals, rfl, rfl, equalsSpelled⟩
  rcases List.map_eq_append_iff.mp equalsSpelled with
    ⟨valueLexemes, behindValue, rfl, valueSpelled, closingSpelled⟩
  rcases List.map_eq_singleton_iff.mp closingSpelled with ⟨⟨_, semicolon⟩, rfl, rfl⟩
  rcases assignment.value.exists_derivation_of_tokens writable.2 valueSpelled with
    ⟨derivation, rfl, bare⟩
  refine ⟨⟨assignment.name, nameSpan, equals, .term (.factor derivation), semicolon⟩, rfl, ?_⟩
  rw [Derivation.Statement.tree, bare_mk, Derivation.tree, Derivation.tree, bare]
  exact (bare_mk assignment.name assignment.nameSpan assignment.value assignment.span).symm

end Assignment

namespace Program

theorem exists_derivation_of_tokens {statements : List Assignment}
    (writable : ∀ assignment ∈ statements, assignment.isWritable = true)
    {lexemes : List Lexeme}
    (spelled : lexemes.map (·.token) = statements.flatMap Assignment.tokens) :
    ∃ derivation, Derivation.programLexemes derivation = lexemes ∧
      derivation.map (·.tree.bare) = statements.map Assignment.bare := by
  induction statements generalizing lexemes with
  | nil =>
      have empty : lexemes = [] := List.map_eq_nil_iff.mp spelled
      exact ⟨[], empty.symm, rfl⟩
  | cons first further induction =>
      rw [List.flatMap_cons] at spelled
      rcases List.map_eq_append_iff.mp spelled with
        ⟨firstLexemes, behind, rfl, firstSpelled, behindSpelled⟩
      rcases first.exists_derivation_of_tokens (writable first List.mem_cons_self) firstSpelled with
        ⟨statement, rfl, firstBare⟩
      rcases induction
          (fun assignment member => writable assignment (List.mem_cons_of_mem _ member))
        behindSpelled with ⟨derivation, rfl, bare⟩
      refine ⟨statement :: derivation, Derivation.programLexemes_cons statement derivation, ?_⟩
      rw [List.map_cons, List.map_cons, firstBare, bare]

end Program

/-! ## Trees that were read are writable -/

theorem nonneg_of_isNumeral {digits : String} {value : Int64}
    (isNumeral : isNumeral digits = true) (reads : Integer.ofText? digits = some value) :
    0 ≤ value.toInt := by
  rw [Integer.ofText?, Text.readInteger?_of_all_isDigit (isDigit_of_isNumeral isNumeral)] at reads
  cases number : Text.readDigits? digits.toList with
  | none => simp [number] at reads
  | some number' =>
      simp only [number, Option.map_some, Option.bind_some, Integer.ofInt?_eq_some_iff] at reads
      rw [reads]
      exact Int.natCast_nonneg number'

namespace Derivation

theorem isWritable_tree (derivation : Derivation layer)
    (spelled : ∀ lexeme ∈ derivation.lexemes, lexeme.token.isSpelled = true) :
    derivation.tree.isWritable = true := by
  induction derivation with
  | term only induction => exact induction spelled
  | sum left operator additive right leftInduction rightInduction =>
      have isOperator : operator.token.isOperator = true := by
        rcases additive with token | token <;> rw [token] <;> rfl
      have leftWritable := leftInduction fun lexeme member =>
        spelled lexeme (List.mem_append_left _ member)
      have rightWritable := rightInduction fun lexeme member =>
        spelled lexeme (List.mem_append_right _ (List.mem_cons_of_mem _ member))
      simp [tree, Expression.isWritable, isOperator, leftWritable, rightWritable]
  | factor only induction => exact induction spelled
  | product left star right leftInduction rightInduction =>
      have leftWritable := leftInduction fun lexeme member =>
        spelled lexeme (List.mem_append_left _ member)
      have rightWritable := rightInduction fun lexeme member =>
        spelled lexeme (List.mem_append_right _ (List.mem_cons_of_mem _ member))
      simp [tree, Expression.isWritable, Token.isOperator, leftWritable, rightWritable]
  | parentheses opening inner closing induction =>
      apply induction
      intro lexeme member
      exact spelled lexeme (List.mem_cons_of_mem _ (List.mem_append_left _ member))
  | signed sign isSign operand induction =>
      have sign_isSign : sign.token.isSign = true := by
        rcases isSign with token | token <;> rw [token] <;> rfl
      have operandWritable := induction fun lexeme member =>
        spelled lexeme (List.mem_cons_of_mem _ member)
      simp [tree, Expression.isWritable, sign_isSign, operandWritable]
  | literal digits span value reads =>
      have numeral : isNumeral digits = true := spelled ⟨.int digits, span⟩ List.mem_cons_self
      simp [tree, Expression.isWritable, nonneg_of_isNumeral numeral reads]
  | least minus digits span reads => simp [tree, Expression.isWritable]
  | identifier name span => exact spelled ⟨.ident name, span⟩ List.mem_cons_self

theorem Statement.isWritable_tree (statement : Statement)
    (spelled : ∀ lexeme ∈ statement.lexemes, lexeme.token.isSpelled = true) :
    statement.tree.isWritable = true := by
  have name : isName statement.name = true :=
    spelled ⟨.ident statement.name, statement.nameSpan⟩ List.mem_cons_self
  have value := statement.value.isWritable_tree fun lexeme member =>
    spelled lexeme
      (List.mem_cons_of_mem _ (List.mem_cons_of_mem _ (List.mem_append_left _ member)))
  simp [tree, Assignment.isWritable, name, value]

end Derivation

theorem isWritable_of_parseText {mode : Mode} {text : String} {program : Program}
    (parsed : parseText mode text = .ok program) : program.isWritable = true := by
  rcases exists_derivation_of_parse (TokenStream.closed_ofItems _) parsed with
    ⟨derivation, stop, equal, rfl⟩
  have spelled : ∀ lexeme ∈ Derivation.programLexemes derivation,
      lexeme.token.isSpelled = true := by
    intro lexeme member
    have proper := Derivation.program_token_ne derivation lexeme member
    have lexed : lexeme ∈ (TokenStream.ofText mode text).lexemes := by
      rw [TokenStream.ofText, equal]
      exact List.mem_append_left _ member
    exact isSpelled_of_mem_ofText lexed proper.2 proper.1
  rw [Program.isWritable, Derivation.programTree, Program.statements_ofStatements,
    List.all_map, List.all_eq_true]
  intro statement member
  apply statement.isWritable_tree
  intro lexeme lexemeMember
  exact spelled lexeme (List.mem_flatMap.mpr ⟨statement, member, lexemeMember⟩)

theorem exists_parseText_text {program : Program} (writable : program.isWritable = true)
    (mode : Mode) :
    ∃ reread, parseText mode program.text = .ok reread ∧ reread.bare = program.bare := by
  have tokens := (lexemes_of_spells (program.spells_text writable) mode).1
  rcases List.map_eq_append_iff.mp tokens with ⟨body, final, equal, bodySpelled, finalSpelled⟩
  rcases List.map_eq_singleton_iff.mp finalSpelled with ⟨⟨_, stop⟩, rfl, rfl⟩
  rcases Program.exists_derivation_of_tokens (List.all_eq_true.mp writable) bodySpelled with
    ⟨derivation, rfl, bare⟩
  refine ⟨_, parse_of_derivation equal, ?_⟩
  rw [Program.bare_eq, Program.bare_eq, Derivation.programTree, Program.statements_ofStatements,
    List.map_map]
  exact congrArg (fun statements => Program.mk statements (.point 0)) bare

/-- Every writable program is read back from its text, in either mode and up to parentheses
and places, and every program that was read from a text is writable. -/
theorem parseText_text_and_isWritable :
    (∀ (program : Program) (mode : Mode), program.isWritable = true →
      ∃ reread, parseText mode program.text = .ok reread ∧ reread.bare = program.bare) ∧
    (∀ (mode : Mode) (text : String) (program : Program),
      parseText mode text = .ok program → program.isWritable = true) :=
  ⟨fun _ mode writable => exists_parseText_text writable mode,
    fun _ _ _ parsed => isWritable_of_parseText parsed⟩

/-- The program `x = -((a * -9223372036854775808) - +a);` at places of no source. -/
def signsOverDifference : Program :=
  ⟨[⟨"x", .point 7, .unary .minus (.nested (.binary .minus
    (.nested (.binary .star (.identifier "a" (.point 3)) (.integer Int64.minValue (.point 2))
      (.point 4)) (.point 1))
    (.unary .plus (.identifier "a" (.point 5)) (.point 0)) (.point 8)) (.point 9)) (.point 6),
    .point 1⟩], .point 2⟩

theorem parseText_text_signsOverDifference :
    signsOverDifference.isWritable = true ∧
    ∃ reread, parseText .strict signsOverDifference.text = .ok reread ∧
      reread.bare = signsOverDifference.bare ∧ reread.isWritable = true := by
  have writable : signsOverDifference.isWritable = true := by decide
  rcases parseText_text_and_isWritable.1 signsOverDifference .strict writable with
    ⟨reread, parsed, bare⟩
  exact ⟨writable, reread, parsed, bare, parseText_text_and_isWritable.2 _ _ reread parsed⟩

end Abacus
