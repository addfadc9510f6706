import Abacus.Proofs.Variables

/-! # What a program depends on

A program reads from outside what one of its statements reads and none before it assigns. Stores
that agree on these names cannot be told apart by running it: the same statements are evaluated,
they assign the same values, and the first that fails does so with the same error. -/

namespace Abacus

namespace Store

/-- Each of the names has the same value in both stores, or no value in either. -/
def AgreeOn (names : List String) (first second : Store) : Prop :=
  ∀ name ∈ names, first.get? name = second.get? name

section Agreeing

variable {names fewer : List String} {first second : Store}

theorem AgreeOn.of_subset (agree : AgreeOn names first second) (contained : fewer ⊆ names) :
    AgreeOn fewer first second :=
  fun name member => agree name (contained member)

theorem AgreeOn.set (agree : AgreeOn names first second) (name : String) (value : Int64) :
    AgreeOn (name :: names) (first.set name value) (second.set name value) := by
  intro other member
  rw [get?_set, get?_set]
  by_cases same : other = name
  · rw [if_pos same, if_pos same]
  · rw [if_neg same, if_neg same]
    exact agree other ((List.mem_cons.mp member).resolve_left same)

end Agreeing

end Store

theorem Expression.eval_eq_of_agreeOn {tree : Expression} {first second : Store}
    (agree : Store.AgreeOn tree.names first second) : tree.eval first = tree.eval second := by
  induction tree with
  | identifier name span =>
      rw [eval, eval, agree name (List.mem_singleton_self name)]
  | integer value span => rfl
  | unary operator operand span induction => rw [eval, eval, induction agree]
  | binary operator left right span leftInduction rightInduction =>
      have leftAgree := agree.of_subset (List.subset_append_left left.names right.names)
      have rightAgree := agree.of_subset (List.subset_append_right left.names right.names)
      rw [eval, eval, leftInduction leftAgree, rightInduction rightAgree]
  | nested inner span induction => exact induction agree

/-! ## Read from outside -/

/-- One of the statements reads the name, and none before it assigns it. -/
def Needs (statements : List Assignment) (name : String) : Prop :=
  ∃ earlier statement later, statements = earlier ++ statement :: later ∧
    name ∈ statement.value.names ∧ name ∉ targets earlier

/-- The names that statements need. What a statement assigns is not needed behind it. -/
def inputs : List Assignment → List String
  | [] => []
  | first :: rest => first.value.names ++ (inputs rest).filter (· ≠ first.name)

theorem mem_inputs_iff {statements : List Assignment} {name : String} :
    name ∈ inputs statements ↔ Needs statements name := by
  induction statements with
  | nil => simp [inputs, Needs]
  | cons first rest induction =>
      rw [inputs, List.mem_append, List.mem_filter, induction]
      constructor
      · rintro (member | ⟨⟨earlier, statement, later, rfl, member, unassigned⟩, other⟩)
        · exact ⟨[], first, rest, rfl, member, List.not_mem_nil⟩
        · refine ⟨first :: earlier, statement, later, rfl, member, ?_⟩
          rw [targets, List.map_cons, List.mem_cons, not_or]
          exact ⟨of_decide_eq_true other, unassigned⟩
      · rintro ⟨earlier, statement, later, split, member, unassigned⟩
        cases earlier with
        | nil =>
            cases split
            exact .inl member
        | cons head earlier =>
            cases split
            rw [targets, List.map_cons, List.mem_cons, not_or] at unassigned
            exact .inr ⟨⟨earlier, statement, later, rfl, member, unassigned.2⟩,
              decide_eq_true unassigned.1⟩

/-! ## Two runs -/

/-- The statements that are evaluated without an error, up to the first that is not. -/
def executed (store : Store) : List Assignment → List Assignment
  | [] => []
  | first :: rest =>
      match first.eval store with
      | .error _ => []
      | .ok after => first :: executed after rest

theorem evalStatements_executed (store : Store) (statements : List Assignment) :
    evalStatements store (executed store statements) =
      (.ok (), (evalStatements store statements).2) := by
  induction statements generalizing store with
  | nil => rfl
  | cons first rest induction =>
      rw [executed, evalStatements]
      cases evaluated : first.eval store with
      | error error => rfl
      | ok after =>
          simp only [evalStatements, evaluated]
          exact induction after

theorem get?_eval_of_notMem_executed (program : Program) (store : Store) {name : String}
    (unassigned : name ∉ targets (executed store program.statements)) :
    (program.eval store).2.get? name = store.get? name :=
  get?_of_notMem_targets (evalStatements_executed store program.statements) unassigned

theorem agreeOn_evalStatements {known : List String} {statements : List Assignment}
    {first second : Store} (agree : Store.AgreeOn (known ++ inputs statements) first second) :
    (evalStatements first statements).1 = (evalStatements second statements).1 ∧
    executed first statements = executed second statements ∧
    Store.AgreeOn (known ++ targets (executed first statements))
      (evalStatements first statements).2 (evalStatements second statements).2 := by
  -- What was assigned so far is known to agree, whatever it was before.
  induction statements generalizing known first second with
  | nil => exact ⟨rfl, rfl, agree⟩
  | cons assignment rest induction =>
      have same : assignment.value.eval first = assignment.value.eval second := by
        apply Expression.eval_eq_of_agreeOn
        apply agree.of_subset
        intro name member
        simp [inputs, member]
      simp only [evalStatements, executed, Assignment.eval, same]
      cases assignment.value.eval second with
      | error error =>
          have stillAgree := agree.of_subset (List.subset_append_left known _)
          exact ⟨rfl, rfl, by simpa [targets] using stillAgree⟩
      | ok value =>
          have stillAgree : Store.AgreeOn ((assignment.name :: known) ++ inputs rest)
              (first.set assignment.name value) (second.set assignment.name value) := by
            apply (agree.set assignment.name value).of_subset
            intro name member
            by_cases assigned : name = assignment.name
            · simp [assigned]
            · simpa [inputs, assigned] using (List.mem_append.mp member).imp_right .inr
          rcases induction stillAgree with ⟨sameResult, sameExecuted, sameStores⟩
          refine ⟨sameResult, congrArg _ sameExecuted, sameStores.of_subset ?_⟩
          intro name member
          simp only [targets, List.map_cons, List.mem_append, List.mem_cons] at member ⊢
          exact or_assoc.mpr (or_left_comm.mp member)

/-- Two stores that agree on what a program needs are not told apart by it. It fails in both with
the same error or in neither, after the same statements. What these assign is the same in both
stores afterwards, and everything else in each store is as it was. -/
theorem eval_determined_by_needs (program : Program) (first second : Store)
    (agree : ∀ name, Needs program.statements name → first.get? name = second.get? name) :
    (program.eval first).1 = (program.eval second).1 ∧
    executed first program.statements = executed second program.statements ∧
    (∀ name ∈ targets (executed first program.statements),
      (program.eval first).2.get? name = (program.eval second).2.get? name) ∧
    (∀ name, name ∉ targets (executed first program.statements) →
      (program.eval first).2.get? name = first.get? name ∧
      (program.eval second).2.get? name = second.get? name) := by
  have agreeOn : Store.AgreeOn ([] ++ inputs program.statements) first second :=
    fun name member => agree name (mem_inputs_iff.mp member)
  rcases agreeOn_evalStatements agreeOn with ⟨sameResult, sameExecuted, sameStores⟩
  refine ⟨sameResult, sameExecuted, sameStores, ?_⟩
  intro name unassigned
  refine ⟨get?_eval_of_notMem_executed program first unassigned, ?_⟩
  rw [sameExecuted] at unassigned
  exact get?_eval_of_notMem_executed program second unassigned

/-! The program `y = a + 1; y = y * q; w = 0;` needs `a` and `q`. It stops at its second statement
where `q` has no value. -/

def needsTwo : Program :=
  ⟨[⟨"y", ⟨0, 1⟩, .binary .plus (.identifier "a" ⟨4, 5⟩) (.integer 1 ⟨8, 9⟩) ⟨4, 9⟩, ⟨0, 10⟩⟩,
    ⟨"y", ⟨11, 12⟩, .binary .star (.identifier "y" ⟨15, 16⟩) (.identifier "q" ⟨19, 20⟩) ⟨15, 20⟩,
      ⟨11, 21⟩⟩,
    ⟨"w", ⟨22, 23⟩, .integer 0 ⟨26, 27⟩, ⟨22, 28⟩⟩], ⟨0, 28⟩⟩

theorem eval_determined_by_needs_stopped :
    parseText .strict "y = a + 1; y = y * q; w = 0;" = .ok needsTwo ∧
    (∀ name, Needs needsTwo.statements name ↔ name ∈ ["a", "q"]) ∧
    (needsTwo.eval ((Store.empty.set "a" 1).set "w" 9)).1 =
      .error ⟨.undefinedVariable "q", ⟨19, 20⟩⟩ ∧
    (needsTwo.eval ((Store.empty.set "a" 1).set "y" 7)).1 =
      .error ⟨.undefinedVariable "q", ⟨19, 20⟩⟩ ∧
    (needsTwo.eval ((Store.empty.set "a" 1).set "w" 9)).2.get? "y" =
      (needsTwo.eval ((Store.empty.set "a" 1).set "y" 7)).2.get? "y" ∧
    (needsTwo.eval ((Store.empty.set "a" 1).set "w" 9)).2.get? "w" = some 9 ∧
    (needsTwo.eval ((Store.empty.set "a" 1).set "y" 7)).2.get? "w" = none := by
  have needs : ∀ name, Needs needsTwo.statements name ↔ name ∈ ["a", "q"] :=
    fun name => mem_inputs_iff.symm
  have agree : Store.AgreeOn ["a", "q"] ((Store.empty.set "a" 1).set "w" 9)
      ((Store.empty.set "a" 1).set "y" 7) := by
    unfold Store.AgreeOn
    decide +kernel
  have failed : (needsTwo.eval ((Store.empty.set "a" 1).set "w" 9)).1 =
      .error ⟨.undefinedVariable "q", ⟨19, 20⟩⟩ := by decide +kernel
  rcases eval_determined_by_needs needsTwo _ _
      (fun name needed => agree name ((needs name).mp needed)) with ⟨result, _, assigned, others⟩
  have kept := others "w" (by decide +kernel)
  exact ⟨by decide +kernel, needs, failed, result.symm.trans failed,
    assigned "y" (by decide +kernel), kept.1, kept.2⟩

end Abacus
