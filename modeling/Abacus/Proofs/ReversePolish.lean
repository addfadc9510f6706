import Abacus.Proofs.FirstFailure
import Abacus.Proofs.RoundTrip
import Abacus.Proofs.Variables

/-! # Reverse Polish order

A tree in reverse Polish order is a row of words with single blanks between them. Read from left
to right on a stack of trees, the words build the tree again, up to parentheses, plus signs and
places. The word for a minus sign is a name as well, so this needs that no variable has that
name. Where one has, different trees may share a rendering. -/

namespace Abacus

namespace Expression

/-! ## Words -/

def words : Expression → List String
  | identifier name _ => [name]
  | integer value _ => [Integer.text value]
  | unary operator operand _ =>
      match operator with
      | .minus => operand.words ++ ["neg"]
      | _ => operand.words
  | binary operator left right _ => left.words ++ right.words ++ [operator.text]
  | nested inner _ => inner.words

theorem words_ne_nil (tree : Expression) : tree.words ≠ [] := by
  induction tree with
  | identifier name span => exact List.cons_ne_nil _ _
  | integer value span => exact List.cons_ne_nil _ _
  | unary operator operand span induction =>
      cases operator with
      | minus => exact List.append_ne_nil_of_left_ne_nil induction _
      | _ => exact induction
  | binary operator left right span leftInduction rightInduction =>
      exact List.append_ne_nil_of_right_ne_nil _ (List.cons_ne_nil _ _)
  | nested inner span induction => exact induction

theorem reversePolish_eq_intercalate (tree : Expression) :
    tree.reversePolish = " ".intercalate tree.words := by
  induction tree with
  | identifier name span => exact String.intercalate_singleton.symm
  | integer value span => exact String.intercalate_singleton.symm
  | unary operator operand span induction =>
      cases operator with
      | minus =>
          have joined := String.intercalate_append_of_ne_nil (s := " ") operand.words_ne_nil
            (List.cons_ne_nil "neg" [])
          rw [String.intercalate_singleton, ← induction] at joined
          simp only [reversePolish, words, joined, String.append_assoc]
          rfl
      | _ => exact induction
  | binary operator left right span leftInduction rightInduction =>
      have operands := String.intercalate_append_of_ne_nil (s := " ") left.words_ne_nil
        right.words_ne_nil
      have joined := String.intercalate_append_of_ne_nil (s := " ")
        (List.append_ne_nil_of_left_ne_nil left.words_ne_nil right.words)
        (List.cons_ne_nil operator.text [])
      rw [String.intercalate_singleton, operands, ← leftInduction, ← rightInduction] at joined
      simp only [reversePolish, words, joined]
  | nested inner span induction => exact induction

theorem blank_notMem_text (value : Int64) : ' ' ∉ (Integer.text value).toList := fun member =>
  absurd (Text.isMinus_or_isDigit_of_mem_integerText member) (by decide)

theorem blank_notMem_of_isName {name : String} (isName : isName name = true) :
    ' ' ∉ name.toList := fun member =>
  absurd (isNamePart_of_isName isName ' ' member) (by decide)

theorem blank_notMem_words {tree : Expression} (arithmetic : tree.isArithmetic = true)
    (named : ∀ name ∈ tree.names, isName name = true) : ∀ word ∈ tree.words, ' ' ∉ word.toList := by
  intro word member
  induction tree with
  | identifier name span =>
      rw [List.mem_singleton.mp member]
      exact blank_notMem_of_isName (named name (List.mem_singleton_self name))
  | integer value span =>
      rw [List.mem_singleton.mp member]
      exact blank_notMem_text value
  | unary operator operand span induction =>
      rw [isArithmetic, Bool.and_eq_true] at arithmetic
      rcases Token.eq_of_isSign arithmetic.1 with rfl | rfl
      · rcases List.mem_append.mp member with member | member
        · exact induction arithmetic.2 named member
        · rw [List.mem_singleton.mp member]
          decide
      · exact induction arithmetic.2 named member
  | binary operator left right span leftInduction rightInduction =>
      rw [isArithmetic, Bool.and_eq_true, Bool.and_eq_true] at arithmetic
      rcases arithmetic with ⟨⟨isOperator, leftArithmetic⟩, rightArithmetic⟩
      rcases List.mem_append.mp member with member | member
      · rcases List.mem_append.mp member with member | member
        · exact leftInduction leftArithmetic
            (fun name found => named name (List.mem_append_left _ found)) member
        · exact rightInduction rightArithmetic
            (fun name found => named name (List.mem_append_right _ found)) member
      · rw [List.mem_singleton.mp member]
        cases operator <;> first | contradiction | decide
  | nested inner span induction => exact induction arithmetic named member

/-- The words are what stands between the blanks. -/
theorem splitOn_reversePolish {tree : Expression} (arithmetic : tree.isArithmetic = true)
    (named : ∀ name ∈ tree.names, isName name = true) :
    tree.reversePolish.toList.splitOn ' ' = tree.words.map String.toList := by
  rw [reversePolish_eq_intercalate, String.toList_intercalate]
  apply List.splitOn_intercalate
  · intro chars member
    rcases List.mem_map.mp member with ⟨word, wordMember, rfl⟩
    exact blank_notMem_words arithmetic named word wordMember
  · simpa using tree.words_ne_nil

theorem isArithmetic_of_isWritable {tree : Expression} (writable : tree.isWritable = true) :
    tree.isArithmetic = true := by
  induction tree with
  | identifier name span => rfl
  | integer value span => rfl
  | unary operator operand span induction =>
      rw [isWritable, Bool.and_eq_true] at writable
      rw [isArithmetic, writable.1, induction writable.2]
      rfl
  | binary operator left right span leftInduction rightInduction =>
      rw [isWritable, Bool.and_eq_true, Bool.and_eq_true] at writable
      rw [isArithmetic, writable.1.1, leftInduction writable.1.2, rightInduction writable.2]
      rfl
  | nested inner span induction => exact induction writable

theorem isName_of_mem_names {tree : Expression} (writable : tree.isWritable = true) :
    ∀ name ∈ tree.names, isName name = true := by
  intro name member
  induction tree with
  | identifier other span =>
      rw [List.mem_singleton.mp member]
      exact writable
  | integer value span => cases member
  | unary operator operand span induction =>
      rw [isWritable, Bool.and_eq_true] at writable
      exact induction writable.2 member
  | binary operator left right span leftInduction rightInduction =>
      rw [isWritable, Bool.and_eq_true, Bool.and_eq_true] at writable
      rcases List.mem_append.mp member with member | member
      · exact leftInduction writable.1.2 member
      · exact rightInduction writable.2 member
  | nested inner span induction => exact induction writable member

theorem words_eq_of_reversePolish_eq {first second : Expression}
    (firstWritable : first.isWritable = true) (secondWritable : second.isWritable = true)
    (same : first.reversePolish = second.reversePolish) : first.words = second.words := by
  have split : ∀ tree : Expression, tree.isWritable = true →
      tree.reversePolish.toList.splitOn ' ' = tree.words.map String.toList :=
    fun tree writable =>
      splitOn_reversePolish (isArithmetic_of_isWritable writable) (isName_of_mem_names writable)
  have chars : first.words.map String.toList = second.words.map String.toList := by
    rw [← split first firstWritable, same, split second secondWritable]
  exact (List.map_inj_right fun _ _ => String.toList_inj.mp).mp chars

/-! ## Reading words -/

/-- The tree without parentheses and plus signs, which leave a value as it is. -/
def simplified : Expression → Expression
  | identifier name span => .identifier name span
  | integer value span => .integer value span
  | unary operator operand span =>
      match operator with
      | .plus => operand.simplified
      | _ => .unary operator operand.simplified span
  | binary operator left right span => .binary operator left.simplified right.simplified span
  | nested inner _ => inner.simplified

def essence (tree : Expression) : Expression :=
  Relocation.erase.expression tree.simplified

def operator? : String → Option Token
  | "+" => some .plus
  | "-" => some .minus
  | "*" => some .star
  | _ => none

/-- A word that is no operator is a literal if it can be read as one, or else a variable. -/
def ofWord (word : String) : Expression :=
  match Integer.ofText? word with
  | some value => .integer value (.point 0)
  | none => .identifier word (.point 0)

/-! A word takes its operands off a stack of trees and puts the tree it makes in their place. -/

def negate : List Expression → List Expression
  | operand :: stack => .unary .minus operand (.point 0) :: stack
  | [] => []

def join (operator : Token) : List Expression → List Expression
  | right :: left :: stack => .binary operator left right (.point 0) :: stack
  | _ => []

def readWord (stack : List Expression) (word : String) : List Expression :=
  if word = "neg" then negate stack
  else
    match operator? word with
    | some operator => join operator stack
    | none => ofWord word :: stack

theorem operator?_eq_none_of_isName {name : String} (isName : isName name = true) :
    operator? name = none := by
  unfold operator?
  split <;> first | rfl | exact absurd isName (by decide)

theorem ofText?_eq_none_of_isName {name : String} (isName : isName name = true) :
    Integer.ofText? name = none := by
  unfold Abacus.isName at isName
  split at isName
  · contradiction
  · next first rest equal =>
      rw [Bool.and_eq_true] at isName
      have noDigit : first.isDigit = false := by
        rw [← Bool.not_eq_true]
        intro digit
        rw [not_isNameStart_of_isDigit digit] at isName
        exact absurd isName.1 (by decide)
      have unread : Text.readDigits? (first :: rest) = none := by
        simp [Text.readDigits?, noDigit]
      have noSign : first ≠ '-' ∧ first ≠ '+' := by
        constructor <;> rintro rfl <;> exact absurd isName.1 (by decide)
      rw [Integer.ofText?, Text.readInteger?, equal]
      simp [noSign, unread]

theorem text_ne_of_ofText?_eq_none {word : String} (unread : Integer.ofText? word = none)
    (value : Int64) : Integer.text value ≠ word := by
  rintro rfl
  rw [Integer.ofText?_text] at unread
  contradiction

theorem operator?_text (value : Int64) : operator? (Integer.text value) = none := by
  unfold operator?
  split
  · next equal => exact absurd equal (text_ne_of_ofText?_eq_none (by decide +kernel) value)
  · next equal => exact absurd equal (text_ne_of_ofText?_eq_none (by decide +kernel) value)
  · next equal => exact absurd equal (text_ne_of_ofText?_eq_none (by decide +kernel) value)
  · rfl

theorem readWord_text (stack : List Expression) (value : Int64) :
    readWord stack (Integer.text value) = .integer value (.point 0) :: stack := by
  rw [readWord, if_neg (text_ne_of_ofText?_eq_none (by decide +kernel) value), operator?_text]
  simp only [ofWord, Integer.ofText?_text]

theorem readWord_name (stack : List Expression) {name : String} (isName : isName name = true)
    (other : name ≠ "neg") : readWord stack name = .identifier name (.point 0) :: stack := by
  rw [readWord, if_neg other, operator?_eq_none_of_isName isName]
  simp only [ofWord, ofText?_eq_none_of_isName isName]

theorem readWord_operator {operator : Token} (isOperator : operator.isOperator = true)
    (left right : Expression) (stack : List Expression) :
    readWord (right :: left :: stack) operator.text =
      .binary operator left right (.point 0) :: stack := by
  cases operator <;> first | contradiction | rfl

/-- The words of a tree put the tree on the stack. -/
theorem foldl_readWord_words {tree : Expression} (writable : tree.isWritable = true)
    (other : "neg" ∉ tree.names) (stack : List Expression) :
    tree.words.foldl readWord stack = tree.essence :: stack := by
  -- The words of a right operand are read while the left operand is on the stack.
  induction tree generalizing stack with
  | identifier name span =>
      exact readWord_name stack writable fun same => other (same ▸ List.mem_cons_self)
  | integer value span => exact readWord_text stack value
  | unary operator operand span induction =>
      rw [isWritable, Bool.and_eq_true] at writable
      have operandRead := induction writable.2 other
      rcases Token.eq_of_isSign writable.1 with rfl | rfl
      · rw [words, List.foldl_append, operandRead]
        rfl
      · exact operandRead stack
  | binary operator left right span leftInduction rightInduction =>
      rw [isWritable, Bool.and_eq_true, Bool.and_eq_true] at writable
      rcases writable with ⟨⟨isOperator, leftWritable⟩, rightWritable⟩
      rw [names, List.mem_append, not_or] at other
      rw [words, List.foldl_append, List.foldl_append, leftInduction leftWritable other.1,
        rightInduction rightWritable other.2]
      exact readWord_operator isOperator left.essence right.essence stack
  | nested inner span induction => exact induction writable other stack

/-! ## How often a variable has the name of the minus sign -/

def isOperatorWord (word : String) : Bool := (operator? word).isSome

/-- Every word but a minus sign leaves one tree more or one tree less, and one tree is left in
the end. So the words alone tell how many minus signs are variables. -/
theorem length_words_add_count {tree : Expression} (writable : tree.isWritable = true) :
    tree.words.length + tree.names.count "neg" =
      tree.words.count "neg" + 2 * tree.words.countP isOperatorWord + 1 := by
  induction tree with
  | identifier name span =>
      have plain : isOperatorWord name = false := by
        rw [isOperatorWord, operator?_eq_none_of_isName writable, Option.isSome_none]
      simp only [words, names, List.length_singleton, List.countP_singleton, plain]
      exact Nat.add_comm _ _
  | integer value span =>
      have other : Integer.text value ≠ "neg" :=
        text_ne_of_ofText?_eq_none (by decide +kernel) value
      simp [words, names, isOperatorWord, operator?_text, other]
  | unary operator operand span induction =>
      rw [isWritable, Bool.and_eq_true] at writable
      have operandCount := induction writable.2
      rcases Token.eq_of_isSign writable.1 with rfl | rfl
      · have sign : ["neg"].countP isOperatorWord = 0 := by decide
        simp only [words, names, List.length_append, List.length_singleton, List.count_append,
          List.count_singleton_self, List.countP_append, sign]
        omega
      · exact operandCount
  | binary operator left right span leftInduction rightInduction =>
      rw [isWritable, Bool.and_eq_true, Bool.and_eq_true] at writable
      rcases writable with ⟨⟨isOperator, leftWritable⟩, rightWritable⟩
      have leftCount := leftInduction leftWritable
      have rightCount := rightInduction rightWritable
      have joins : [operator.text].countP isOperatorWord = 1 ∧ [operator.text].count "neg" = 0 := by
        cases operator <;> first | contradiction | decide
      simp only [words, names, List.length_append, List.length_singleton, List.count_append,
        List.countP_append, joins]
      omega
  | nested inner span induction => exact induction writable

theorem essence_eq_of_words_eq {first second : Expression}
    (firstWritable : first.isWritable = true) (secondWritable : second.isWritable = true)
    (other : "neg" ∉ first.names) (same : first.words = second.words) :
    first.essence = second.essence := by
  have firstCount := length_words_add_count firstWritable
  have secondCount := length_words_add_count secondWritable
  have otherSecond : "neg" ∉ second.names := by
    rw [← List.count_eq_zero] at other ⊢
    rw [← same] at secondCount
    omega
  have firstRead := foldl_readWord_words firstWritable other []
  have secondRead := foldl_readWord_words secondWritable otherSecond []
  rw [same, secondRead] at firstRead
  exact (List.cons.inj firstRead).1.symm

/-! ## Values -/

theorem eval_simplified (store : Store) (tree : Expression) :
    tree.simplified.eval store = tree.eval store := by
  induction tree with
  | identifier name span => rfl
  | integer value span => rfl
  | unary operator operand span induction =>
      cases operator with
      | plus =>
          rw [simplified, induction, eval]
          cases operand.eval store <;> rfl
      | _ => simp only [simplified, eval, induction]
  | binary operator left right span leftInduction rightInduction =>
      simp only [simplified, eval, leftInduction, rightInduction]
  | nested inner span induction => exact induction

theorem eval_essence (store : Store) (tree : Expression) :
    tree.essence.eval store = (tree.eval store).mapError Relocation.erase.evalError := by
  rw [essence, eval_relocated, eval_simplified]

/-! ## Trees that were read -/

/-- The tree was read from a text, as the value of a statement or by itself. -/
def IsRead (tree : Expression) : Prop :=
  ∃ mode text,
    (∃ program, parseText mode text = .ok program ∧
      ∃ statement ∈ program.statements, statement.value = tree) ∨
    ∃ rest, (Grammar.expression .sum (TokenStream.ofText mode text).lexemes).Gives tree rest

theorem isWritable_of_isRead {tree : Expression} (isRead : tree.IsRead) :
    tree.isWritable = true := by
  rcases isRead with ⟨mode, text, ⟨program, parsed, statement, member, rfl⟩ | ⟨rest, _, read⟩⟩
  · have writable := List.all_eq_true.mp (isWritable_of_parseText parsed) statement member
    exact (Bool.and_eq_true_iff.mp writable).2
  · rcases Grammar.exists_derivation_of_expression read with ⟨derivation, equal, rfl⟩
    apply derivation.isWritable_tree
    intro lexeme member
    have proper := derivation.token_ne member
    have lexed : lexeme ∈ (TokenStream.ofText mode text).lexemes := by
      rw [← equal]
      exact List.mem_append_left _ member
    exact isSpelled_of_mem_ofText lexed proper.2 proper.1

end Expression

/-- Of two trees that were read, one without a variable of the name `neg`, the same rendering
in reverse Polish order means the same tree up to parentheses, plus signs and places. So they
have the same value in every store, or the same cause to have none. -/
theorem essence_eq_of_reversePolish_eq (first second : Expression) (firstRead : first.IsRead)
    (secondRead : second.IsRead) (other : "neg" ∉ first.names)
    (same : first.reversePolish = second.reversePolish) :
    first.essence = second.essence ∧
    ∀ store, (first.eval store).mapError Relocation.erase.evalError =
      (second.eval store).mapError Relocation.erase.evalError := by
  have firstWritable := Expression.isWritable_of_isRead firstRead
  have secondWritable := Expression.isWritable_of_isRead secondRead
  have words := Expression.words_eq_of_reversePolish_eq firstWritable secondWritable same
  have essence := Expression.essence_eq_of_words_eq firstWritable secondWritable other words
  refine ⟨essence, fun store => ?_⟩
  rw [← Expression.eval_essence, ← Expression.eval_essence, essence]

/-! The value of `x = +(a - 1) * -2;`, and that of `x = (a - 1) * -(2);`. -/

def underPlus : Expression :=
  .binary .star
    (.unary .plus
      (.nested (.binary .minus (.identifier "a" ⟨6, 7⟩) (.integer 1 ⟨10, 11⟩) ⟨6, 11⟩) ⟨5, 12⟩)
      ⟨4, 12⟩)
    (.unary .minus (.integer 2 ⟨16, 17⟩) ⟨15, 17⟩) ⟨4, 17⟩

def inParentheses : Expression :=
  .binary .star
    (.nested (.binary .minus (.identifier "a" ⟨5, 6⟩) (.integer 1 ⟨9, 10⟩) ⟨5, 10⟩) ⟨4, 11⟩)
    (.unary .minus (.nested (.integer 2 ⟨16, 17⟩) ⟨15, 18⟩) ⟨14, 18⟩) ⟨4, 18⟩

theorem essence_eq_of_reversePolish_eq_underPlus :
    underPlus.IsRead ∧ inParentheses.IsRead ∧ "neg" ∉ underPlus.names ∧
    underPlus.reversePolish = "a 1 - 2 neg *" ∧ inParentheses.reversePolish = "a 1 - 2 neg *" ∧
    underPlus.essence = inParentheses.essence ∧
    ∀ store, (underPlus.eval store).mapError Relocation.erase.evalError =
      (inParentheses.eval store).mapError Relocation.erase.evalError := by
  have firstRead : underPlus.IsRead :=
    ⟨.strict, "x = +(a - 1) * -2;",
      .inl ⟨⟨[⟨"x", ⟨0, 1⟩, underPlus, ⟨0, 18⟩⟩], ⟨0, 18⟩⟩, by decide +kernel, _,
        List.mem_singleton_self _, rfl⟩⟩
  have secondRead : inParentheses.IsRead :=
    ⟨.strict, "x = (a - 1) * -(2);",
      .inl ⟨⟨[⟨"x", ⟨0, 1⟩, inParentheses, ⟨0, 19⟩⟩], ⟨0, 19⟩⟩, by decide +kernel, _,
        List.mem_singleton_self _, rfl⟩⟩
  have other : "neg" ∉ underPlus.names := by decide
  have same : underPlus.reversePolish = inParentheses.reversePolish := by decide +kernel
  exact ⟨firstRead, secondRead, other, by decide +kernel, by decide +kernel,
    essence_eq_of_reversePolish_eq _ _ firstRead secondRead other same⟩

/-! ## A variable with the name of the minus sign

The two values of `x = -a * neg + neg; y = a + -(neg * neg);`. The first of their words `neg` is
a sign in one and a variable in the other, and so is the last. -/

def signFirst : Expression :=
  .binary .plus
    (.binary .star (.unary .minus (.identifier "a" ⟨5, 6⟩) ⟨4, 6⟩) (.identifier "neg" ⟨9, 12⟩)
      ⟨4, 12⟩)
    (.identifier "neg" ⟨15, 18⟩) ⟨4, 18⟩

def signLast : Expression :=
  .binary .plus (.identifier "a" ⟨24, 25⟩)
    (.unary .minus
      (.nested
        (.binary .star (.identifier "neg" ⟨30, 33⟩) (.identifier "neg" ⟨36, 39⟩) ⟨30, 39⟩)
        ⟨29, 40⟩)
      ⟨28, 40⟩) ⟨24, 40⟩

theorem reversePolish_signFirst_eq_signLast :
    signFirst.IsRead ∧ signLast.IsRead ∧
    signFirst.reversePolish = "a neg neg * neg +" ∧
    signLast.reversePolish = "a neg neg * neg +" ∧
    signFirst.essence ≠ signLast.essence ∧
    signFirst.eval ((Store.empty.set "a" 1).set "neg" 2) = .ok 0 ∧
    signLast.eval ((Store.empty.set "a" 1).set "neg" 2) = .ok (-3) := by
  have parsed : parseText .strict "x = -a * neg + neg; y = a + -(neg * neg);" =
      .ok ⟨[⟨"x", ⟨0, 1⟩, signFirst, ⟨0, 19⟩⟩, ⟨"y", ⟨20, 21⟩, signLast, ⟨20, 41⟩⟩],
        ⟨0, 41⟩⟩ := by
    decide +kernel
  have firstRead : signFirst.IsRead :=
    ⟨_, _, .inl ⟨_, parsed, _, List.mem_cons_self, rfl⟩⟩
  have lastRead : signLast.IsRead :=
    ⟨_, _, .inl ⟨_, parsed, _, List.mem_cons_of_mem _ List.mem_cons_self, rfl⟩⟩
  exact ⟨firstRead, lastRead, by decide +kernel, by decide +kernel, by decide, by decide +kernel,
    by decide +kernel⟩

end Abacus
