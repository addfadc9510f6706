import Abacus.Proofs.Nodes

/-! # Strict and permissive lexing

The strict lexer goes through the same cursors as the permissive one. It only stops at more of
them, where a character begins no token. A run that succeeds meets no lexical error at all, so
a text that runs strictly runs to the same store in either mode. -/

namespace Abacus

/-- The error for a character that no token starts with. -/
def Item.isUnrecognized : Item → Bool
  | failed ⟨.unrecognized _, _⟩ => true
  | _ => false

/-! ## Both modes side by side -/

namespace Cursor

theorem isUnrecognized_scanNumber (start : Nat) (first : Char) (rest : Cursor) :
    (scanNumber start first rest).1.isUnrecognized = false := by
  unfold scanNumber
  split
  · split <;> rfl
  · rfl

/-- Where the strict lexer recognizes what it finds, the permissive one reads the same. -/
theorem scan_permissive_of_recognized {cursor : Cursor}
    (recognized : (cursor.scan .strict).1.isUnrecognized = false) :
    cursor.scan .permissive = cursor.scan .strict := by
  rcases cursor with ⟨cells, stop⟩
  induction cells with
  | nil => rfl
  | cons cell cells induction =>
      match cell with
      | ⟨start, none⟩ => rfl
      | ⟨start, some char⟩ =>
          simp only [scan, scanCells] at recognized induction ⊢
          cases charClass : CharClass.of char with
          | symbol token => rfl
          | name => rfl
          | digit => rfl
          | blank =>
              simp only [charClass] at recognized
              exact induction recognized
          | other =>
              simp only [charClass] at recognized
              contradiction

/-- Where the strict lexer gives up a character, the permissive one reads on behind it. -/
theorem scan_permissive_of_isUnrecognized {cursor : Cursor}
    (unrecognized : (cursor.scan .strict).1.isUnrecognized = true) :
    cursor.scan .permissive = (cursor.scan .strict).2.scan .permissive := by
  rcases cursor with ⟨cells, stop⟩
  induction cells with
  | nil => contradiction
  | cons cell cells induction =>
      match cell with
      | ⟨start, none⟩ => contradiction
      | ⟨start, some char⟩ =>
          simp only [scan, scanCells] at unrecognized induction ⊢
          cases charClass : CharClass.of char with
          | symbol token => simp [charClass, Item.ofToken, Item.isUnrecognized] at unrecognized
          | name => simp [charClass, Item.ofToken, Item.isUnrecognized] at unrecognized
          | digit => simp [charClass, isUnrecognized_scanNumber] at unrecognized
          | blank =>
              simp only [charClass] at unrecognized
              exact induction unrecognized
          | other => rfl

theorem drain_permissive (cursor : Cursor) :
    (cursor.drain .permissive).1 =
      (cursor.drain .strict).1.filter fun item => !item.isUnrecognized := by
  -- One step of the strict lexer is one of the permissive lexer, or none.
  induction cursor using scan_induction .strict with
  | ended cursor atEnd =>
      rcases Item.exists_of_isEnd atEnd with ⟨span, isEnd⟩
      have same : cursor.scan .permissive = cursor.scan .strict :=
        scan_permissive_of_recognized (by rw [isEnd]; rfl)
      rw [drain_of_isEnd atEnd, drain_of_isEnd (same ▸ atEnd), same, isEnd]
      rfl
  | unfinished cursor going induction =>
      rw [drain_of_unfinished going]
      cases unrecognized : (cursor.scan .strict).1.isUnrecognized with
      | true =>
          rw [drain_congr (scan_permissive_of_isUnrecognized unrecognized), induction,
            List.filter_cons_of_neg (by simp [unrecognized])]
      | false =>
          have same := scan_permissive_of_recognized unrecognized
          rw [drain_of_unfinished (same ▸ going), same, induction,
            List.filter_cons_of_pos (by simp [unrecognized])]

end Cursor

/-! ## Runs without lexical errors -/

/-- Whatever runs to its end was read without a lexical error. -/
theorem exists_lexemes_of_run {mode : Mode} {text : String} {store after : Store}
    (ran : (Run.ofText mode text store).result = .ok after) :
    ∃ lexemes : List Lexeme, lex mode text = lexemes.map .read := by
  rcases exists_derivation_of_execute (TokenStream.closed_ofItems _) ran with
    ⟨derivation, stop, equal, _⟩
  rcases lex_of_parseText (parse_of_derivation equal) with ⟨derived, final, _, items⟩
  refine ⟨Derivation.programLexemes derived ++ [⟨.eof, final⟩], ?_⟩
  rw [items, List.map_append]
  rfl

theorem warnings_eq_nil_of_lex {mode : Mode} {text : String} {lexemes : List Lexeme}
    (items : lex mode text = lexemes.map .read) (store : Store) :
    (Run.ofText mode text store).warnings = [] := by
  simp [Run.ofText, Run.ofStream, TokenStream.ofText, TokenStream.ofItems, items,
    List.filterMap_map, Function.comp_def, Item.error?]

theorem filter_map_read (lexemes : List Lexeme) :
    (lexemes.map Item.read).filter (fun item => !item.isUnrecognized) = lexemes.map .read := by
  rw [List.filter_eq_self]
  intro item member
  rcases List.mem_map.mp member with ⟨lexeme, _, rfl⟩
  rfl

theorem run_eq_of_lex_eq {first second : Mode} {text : String}
    (same : lex first text = lex second text) (store : Store) :
    Run.ofText first text store = Run.ofText second text store := by
  rw [Run.ofText, Run.ofText, TokenStream.ofText, TokenStream.ofText, same]

/-- The strict items without those for unrecognized characters are the permissive items. So a
text that runs strictly runs to the same store permissively, neither run with a warning, and no
text runs strictly in which an unrecognized character is met. -/
theorem strict_only_rejects (text : String) :
    ((lex .strict text).filter fun item => !item.isUnrecognized) = lex .permissive text ∧
    (∀ store after, (Run.ofText .strict text store).result = .ok after →
      (Run.ofText .permissive text store).result = .ok after ∧
      (Run.ofText .strict text store).warnings = [] ∧
      (Run.ofText .permissive text store).warnings = []) ∧
    ((∃ item ∈ lex .strict text, item.isUnrecognized = true) →
      ∀ store, ∃ failure, (Run.ofText .strict text store).result = .error failure) := by
  have filtered : ((lex .strict text).filter fun item => !item.isUnrecognized) =
      lex .permissive text := (Cursor.drain_permissive (Cursor.ofText text)).symm
  refine ⟨filtered, fun store after ran => ?_, fun ⟨item, member, unrecognized⟩ store => ?_⟩
  · rcases exists_lexemes_of_run ran with ⟨lexemes, items⟩
    have same : lex .permissive text = lex .strict text := by
      rw [← filtered, items, filter_map_read]
    rw [run_eq_of_lex_eq same]
    exact ⟨ran, warnings_eq_nil_of_lex items store, warnings_eq_nil_of_lex items store⟩
  · cases ran : (Run.ofText .strict text store).result with
    | error failure => exact ⟨failure, rfl⟩
    | ok after =>
        rcases exists_lexemes_of_run ran with ⟨lexemes, items⟩
        rw [items] at member
        rcases List.mem_map.mp member with ⟨lexeme, _, rfl⟩
        contradiction

theorem strict_only_rejects_hash :
    ((Run.ofText .strict "x = 7\t- 2;" .empty).result = .ok (Store.empty.set "x" 5) ∧
      (Run.ofText .permissive "x = 7\t- 2;" .empty).result = .ok (Store.empty.set "x" 5) ∧
      (Run.ofText .permissive "x = 7\t- 2;" .empty).warnings = []) ∧
    ((∃ item ∈ lex .strict "x = 7 #\n- 2;", item.isUnrecognized = true) ∧
      ∃ failure, (Run.ofText .strict "x = 7 #\n- 2;" .empty).result = .error failure) := by
  have ran : (Run.ofText .strict "x = 7\t- 2;" .empty).result = .ok (Store.empty.set "x" 5) := by
    decide +kernel
  have met : ∃ item ∈ lex .strict "x = 7 #\n- 2;", item.isUnrecognized = true :=
    ⟨.ofCause (.unrecognized '#') 6 7, by decide +kernel, rfl⟩
  have permissive := (strict_only_rejects "x = 7\t- 2;").2.1 _ _ ran
  exact ⟨⟨ran, permissive.1, permissive.2.2⟩, met,
    (strict_only_rejects "x = 7 #\n- 2;").2.2 met .empty⟩

end Abacus
