import Abacus.Proofs.Excerpts
import Abacus.Proofs.FirstFailure
import Abacus.Proofs.ReversePolish

/-! # Exact arithmetic

An evaluation gives the exact value over the unbounded integers, or it stops at the first node
that fails. The variables of a tree are leaves, and leaves come in postorder from left to right,
so an undefined variable that is reported is the leftmost one. -/

namespace Abacus

namespace Expression

/-! ## Variables from left to right -/

/-- The variables that are read, with their places. -/
def references : Expression → List (String × Span)
  | identifier name span => [(name, span)]
  | integer _ _ => []
  | unary _ operand _ => operand.references
  | binary _ left right _ => left.references ++ right.references
  | nested inner _ => inner.references

def reference? : Expression → Option (String × Span)
  | identifier name span => some (name, span)
  | _ => none

theorem filterMap_postorder (tree : Expression) :
    tree.postorder.filterMap reference? = tree.references := by
  induction tree with
  | identifier name span => rfl
  | integer value span => rfl
  | unary operator operand span induction =>
      rw [postorder, List.filterMap_append, induction]
      exact List.append_nil _
  | binary operator left right span leftInduction rightInduction =>
      rw [postorder, List.filterMap_append, List.filterMap_append, leftInduction, rightInduction]
      exact congrArg _ (List.append_nil _)
  | nested inner span induction =>
      rw [postorder, List.filterMap_append, induction]
      exact List.append_nil _

/-- A variable is the first node to fail if all variables before it are defined, and then it is
the leftmost that is not. -/
theorem exists_references_of_firstFailure? {tree : Expression} {store : Store} {name : String}
    {span : Span} (first : tree.firstFailure? store = some (.identifier name span)) :
    ∃ before behind, tree.references = before ++ (name, span) :: behind ∧
      store.contains name = false ∧ ∀ earlier ∈ before, store.contains earlier.1 = true := by
  rw [firstFailure?, List.find?_eq_some_iff_append] at first
  rcases first with ⟨fails, earlier, later, split, sound⟩
  refine ⟨earlier.filterMap reference?, later.filterMap reference?, ?_, ?_, ?_⟩
  · rw [← filterMap_postorder, split, List.filterMap_append]
    rfl
  · simpa [Expression.fails] using fails
  · intro other member
    rcases List.mem_filterMap.mp member with ⟨node, nodeMember, isReference⟩
    cases node with
    | identifier otherName place =>
        cases isReference
        simpa [Expression.fails] using sound _ nodeMember
    | _ => contradiction

theorem eq_identifier_of_failure {node : Expression} {name : String} {span : Span}
    (undefined : node.failure = ⟨.undefinedVariable name, span⟩) :
    node = .identifier name span := by
  cases node with
  | identifier other place =>
      cases undefined
      rfl
  | _ => cases undefined

end Expression

/-! ## Variables in the order of the source -/

def Lexeme.reference? (lexeme : Lexeme) : Option (String × Span) :=
  match lexeme.token with
  | .ident name => some (name, lexeme.span)
  | _ => none

theorem Lexeme.span_of_reference? {lexeme : Lexeme} {name : String} {span : Span}
    (found : lexeme.reference? = some (name, span)) : span = lexeme.span := by
  unfold Lexeme.reference? at found
  split at found
  · cases found
    rfl
  · contradiction

/-- A derived tree reads the names among the tokens, in their order. -/
theorem Derivation.references_tree (derivation : Derivation layer) :
    derivation.tree.references = derivation.lexemes.filterMap Lexeme.reference? := by
  induction derivation with
  | term only induction => exact induction
  | sum left operator additive right leftInduction rightInduction =>
      have noName : operator.reference? = none := by
        rcases additive with token | token <;> simp [Lexeme.reference?, token]
      rw [tree, Expression.references, leftInduction, rightInduction, lexemes,
        List.filterMap_append, List.filterMap_cons_none noName]
  | factor only induction => exact induction
  | product left star right leftInduction rightInduction =>
      rw [tree, Expression.references, leftInduction, rightInduction, lexemes,
        List.filterMap_append, List.filterMap_cons_none rfl]
  | parentheses opening inner closing induction =>
      rw [tree, Expression.references, induction, lexemes, List.filterMap_cons_none rfl,
        List.filterMap_append]
      exact (List.append_nil _).symm
  | signed sign isSign operand induction =>
      have noName : sign.reference? = none := by
        rcases isSign with token | token <;> simp [Lexeme.reference?, token]
      rw [tree, Expression.references, induction, lexemes, List.filterMap_cons_none noName]
  | literal digits span value reads => rfl
  | least minus digits span reads => rfl
  | identifier name span => rfl

theorem Item.span_lexeme (item : Item) : item.lexeme.span = item.span := by
  cases item <;> rfl

theorem TokenStream.pairwise_before_lexemes (mode : Mode) (text : String) :
    (ofText mode text).lexemes.Pairwise fun first second => first.span.Before second.span := by
  rw [lexemes_ofText, List.pairwise_map]
  simp only [Item.span_lexeme]
  exact pairwise_before_lex mode text

namespace Expression

/-- A tree that was read is derived from some of the tokens of a text, in their order. -/
theorem exists_derivation_of_isRead {tree : Expression} (isRead : tree.IsRead) :
    ∃ mode text, ∃ derivation : Derivation .sum, derivation.tree = tree ∧
      derivation.lexemes.Sublist (TokenStream.ofText mode text).lexemes := by
  rcases isRead with ⟨mode, text, ⟨program, parsed, statement, member, rfl⟩ | ⟨rest, _, read⟩⟩
  · rcases exists_derivation_of_parse (TokenStream.closed_ofItems _) parsed with
      ⟨derivation, stop, equal, rfl⟩
    rw [Derivation.programTree, Program.statements_ofStatements] at member
    rcases List.mem_map.mp member with ⟨derived, found, rfl⟩
    refine ⟨mode, text, derived.value, rfl, ?_⟩
    have inStatement : derived.value.lexemes.Sublist derived.lexemes :=
      (((List.sublist_append_left _ _).cons _).cons _)
    have inProgram : derived.lexemes.Sublist (Derivation.programLexemes derivation) :=
      List.sublist_flatten_of_mem (List.mem_map_of_mem found)
    rw [TokenStream.ofText, equal]
    exact (inStatement.trans inProgram).trans (List.sublist_append_left _ _)
  · rcases Grammar.exists_derivation_of_expression read with ⟨derivation, equal, rfl⟩
    refine ⟨mode, text, derivation, rfl, ?_⟩
    rw [← equal]
    exact List.sublist_append_left _ _

theorem pairwise_before_references {tree : Expression} (isRead : tree.IsRead) :
    tree.references.Pairwise fun first second => first.2.Before second.2 := by
  rcases exists_derivation_of_isRead isRead with ⟨mode, text, derivation, rfl, within⟩
  rw [derivation.references_tree]
  apply List.Pairwise.filterMap Lexeme.reference? _
    ((TokenStream.pairwise_before_lexemes mode text).sublist within)
  intro first second before earlier isFirst later isSecond
  rw [Lexeme.span_of_reference? isFirst, Lexeme.span_of_reference? isSecond]
  exact before

end Expression

/-- In a tree of signs and operators, where no node fails the value is the exact one. Otherwise
the error is that of the first node in postorder that fails. An undefined variable is only
reported if all variables to its left are defined, and in a tree that was read from a text these
are the ones that stand before it there. -/
theorem eval_exact_or_first_failure (tree : Expression) (arithmetic : tree.isArithmetic = true)
    (store : Store) :
    (tree.firstFailure? store = none →
      ∃ value, tree.eval store = .ok value ∧ tree.unbounded? store = some value.toInt) ∧
    (∀ node, tree.firstFailure? store = some node → tree.eval store = .error node.failure) ∧
    (∀ name span, tree.eval store = .error ⟨.undefinedVariable name, span⟩ →
      ∃ before behind, tree.references = before ++ (name, span) :: behind ∧
        store.contains name = false ∧ ∀ earlier ∈ before, store.contains earlier.1 = true) ∧
    (tree.IsRead → tree.references.Pairwise fun first second => first.2.Before second.2) := by
  refine ⟨?_, ?_, ?_, ?_⟩
  · intro sound
    have explained := Expression.explained_eval arithmetic store
    cases evaluated : tree.eval store with
    | ok value =>
        rw [evaluated] at explained
        exact ⟨value, rfl, explained.2⟩
    | error error =>
        rcases Expression.exists_firstFailure?_of_eval arithmetic evaluated with ⟨node, first, _⟩
        rw [sound] at first
        contradiction
  · intro node first
    exact Expression.eval_of_firstFailure? arithmetic first
  · intro name span undefined
    rcases Expression.exists_firstFailure?_of_eval arithmetic undefined with ⟨node, first, error⟩
    rw [Expression.eq_identifier_of_failure error.symm] at first
    exact Expression.exists_references_of_firstFailure? first
  · intro isRead
    exact Expression.pairwise_before_references isRead

/-! The value of `x = a - (b + 1) * c;`. It overflows in its inner sum if `b` is the greatest
integer, unless `a` is undefined. -/

def innerSum : Expression :=
  .binary .plus (.identifier "b" ⟨9, 10⟩) (.integer 1 ⟨13, 14⟩) ⟨9, 14⟩

def differenceOfProduct : Expression :=
  .binary .minus (.identifier "a" ⟨4, 5⟩)
    (.binary .star (.nested innerSum ⟨8, 15⟩) (.identifier "c" ⟨18, 19⟩) ⟨8, 19⟩) ⟨4, 19⟩

theorem eval_exact_or_first_failure_differenceOfProduct :
    differenceOfProduct.isArithmetic = true ∧
    (differenceOfProduct.firstFailure? (((Store.empty.set "a" 1).set "b" 2).set "c" (-3)) = none ∧
      ∃ value, differenceOfProduct.eval (((Store.empty.set "a" 1).set "b" 2).set "c" (-3)) =
        .ok value ∧ value.toInt = 10) ∧
    (differenceOfProduct.firstFailure? ((Store.empty.set "a" 1).set "b" Int64.maxValue) =
        some innerSum ∧
      differenceOfProduct.eval ((Store.empty.set "a" 1).set "b" Int64.maxValue) =
        .error ⟨.overflow, ⟨9, 14⟩⟩) ∧
    (differenceOfProduct.eval (Store.empty.set "b" Int64.maxValue) =
        .error ⟨.undefinedVariable "a", ⟨4, 5⟩⟩ ∧
      ∃ before behind, differenceOfProduct.references = before ++ ("a", ⟨4, 5⟩) :: behind ∧
        (Store.empty.set "b" Int64.maxValue).contains "a" = false ∧
        ∀ earlier ∈ before, (Store.empty.set "b" Int64.maxValue).contains earlier.1 = true) ∧
    differenceOfProduct.IsRead ∧
    differenceOfProduct.references.Pairwise fun first second => first.2.Before second.2 := by
  have arithmetic : differenceOfProduct.isArithmetic = true := by decide
  have sound : differenceOfProduct.firstFailure?
      (((Store.empty.set "a" 1).set "b" 2).set "c" (-3)) = none := by decide +kernel
  have exact : differenceOfProduct.unbounded?
      (((Store.empty.set "a" 1).set "b" 2).set "c" (-3)) = some 10 := by decide +kernel
  have first : differenceOfProduct.firstFailure?
      ((Store.empty.set "a" 1).set "b" Int64.maxValue) = some innerSum := by decide +kernel
  have undefined : differenceOfProduct.eval (Store.empty.set "b" Int64.maxValue) =
      .error ⟨.undefinedVariable "a", ⟨4, 5⟩⟩ := by decide +kernel
  have isRead : differenceOfProduct.IsRead :=
    ⟨.strict, "x = a - (b + 1) * c;",
      .inl ⟨⟨[⟨"x", ⟨0, 1⟩, differenceOfProduct, ⟨0, 20⟩⟩], ⟨0, 20⟩⟩, by decide +kernel, _,
        List.mem_singleton_self _, rfl⟩⟩
  have holds := eval_exact_or_first_failure differenceOfProduct arithmetic
  rcases (holds _).1 sound with ⟨value, evaluated, known⟩
  rw [exact, Option.some.injEq] at known
  exact ⟨arithmetic, ⟨sound, value, evaluated, known.symm⟩, ⟨first, (holds _).2.1 _ first⟩,
    ⟨undefined, (holds _).2.2.1 _ _ undefined⟩, isRead, (holds .empty).2.2.2 isRead⟩

end Abacus
