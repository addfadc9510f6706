import Abacus.Proofs.Literals
import Abacus.Proofs.Variables
import Abacus.Text.Lines

/-! # Listings of stores

A store is listed with one line for each variable. With a semicolon at the end of every line the
listing is a program, and running it from the empty store gives the store again. This needs that
the names of the variables are names of the language, which is so for all stores that runs lead
to. -/

namespace Abacus

open Grammar

/-! ## Stores that runs lead to -/

/-- The stores that runs lead to from the empty store, whether they succeed or not. -/
inductive Store.IsReachable : Store → Prop
  | empty : IsReachable .empty
  | run (before : IsReachable store) (mode : Mode) (text : String) :
      IsReachable ((Run.ofText mode text store).storeAfter store)

theorem isName_of_mem_targets {mode : Mode} {text : String} {program : Program}
    (parsed : parseText mode text = .ok program) {name : String}
    (member : name ∈ targets program.statements) : isName name = true := by
  rcases List.mem_map.mp member with ⟨assignment, found, rfl⟩
  have writable := List.all_eq_true.mp (isWritable_of_parseText parsed) assignment found
  exact (Bool.and_eq_true_iff.mp writable).1

theorem isName_of_run {mode : Mode} {text : String} {before after : Store}
    (named : ∀ name ∈ before.names, isName name = true)
    (ran : (Run.ofText mode text before).result = .ok after) :
    ∀ name ∈ after.names, isName name = true := by
  rcases exists_program_of_run ran with ⟨program, parsed, evaluated⟩
  intro name member
  rcases (mem_names_iff_of_evalStatements evaluated).mp member with known | assigned
  · exact named name known
  · exact isName_of_mem_targets parsed assigned

theorem Store.IsReachable.isName_of_mem_names {store : Store} (reachable : store.IsReachable) :
    ∀ name ∈ store.names, isName name = true := by
  induction reachable with
  | empty =>
      intro name member
      contradiction
  | run before mode text induction =>
      rename_i store
      unfold Run.storeAfter
      split
      · next after ran => exact isName_of_run induction ran
      · exact induction

/-! ## Entries -/

namespace Store

theorem mem_iff_lookup {entries : List (String × Int64)}
    (ascending : entries.Pairwise fun first second => first.1 < second.1) {name : String}
    {value : Int64} : (name, value) ∈ entries ↔ lookup name entries = some value := by
  induction entries with
  | nil => simp [lookup]
  | cons entry rest induction =>
      rcases List.pairwise_cons.mp ascending with ⟨first, restAscending⟩
      rw [List.mem_cons, induction restAscending, lookup]
      by_cases same : entry.1 = name
      · -- A name that comes first is not the name of a later entry.
        have once : lookup name rest ≠ some value := by
          intro found
          have later := first _ ((induction restAscending).mpr found)
          exact String.lt_irrefl _ (same ▸ later)
        rw [if_pos same, Option.some.injEq]
        constructor
        · rintro (rfl | found)
          · rfl
          · exact absurd found once
        · rintro rfl
          exact .inl (by rw [← same])
      · rw [if_neg same]
        constructor
        · rintro (rfl | found)
          · exact absurd rfl same
          · exact found
        · exact .inr

theorem mem_entries_iff {store : Store} {name : String} {value : Int64} :
    (name, value) ∈ store.entries ↔ store.get? name = some value :=
  mem_iff_lookup store.ascending

/-- A store is what its variables are. -/
theorem ext_get? {first second : Store} (same : ∀ name, first.get? name = second.get? name) :
    first = second := by
  have once : ∀ store : Store, store.entries.Nodup := fun store =>
    store.ascending.imp fun {before behind} (less : before.1 < behind.1) equal =>
      String.lt_irrefl _ (equal ▸ less)
  have permuted : first.entries.Perm second.entries := by
    rw [List.perm_ext_iff_of_nodup (once first) (once second)]
    rintro ⟨name, value⟩
    rw [mem_entries_iff, mem_entries_iff, same]
  apply Store.ext
  refine List.Perm.eq_of_pairwise ?_ first.ascending second.ascending permuted
  intro before behind _ _ less greater
  exact absurd (String.lt_trans less greater) (String.lt_irrefl _)

/-- Of variables that are set one after the other, each once, the last values are found. -/
theorem get?_foldl_set (store : Store) {entries : List (String × Int64)}
    (ascending : entries.Pairwise fun first second => first.1 < second.1) (name : String) :
    (entries.foldl (fun store entry => store.set entry.1 entry.2) store).get? name =
      (lookup name entries).or (store.get? name) := by
  induction entries generalizing store with
  | nil => rfl
  | cons entry rest induction =>
      rcases List.pairwise_cons.mp ascending with ⟨first, restAscending⟩
      rw [List.foldl_cons, induction _ restAscending, get?_set, lookup]
      by_cases same : name = entry.1
      · subst same
        have once : lookup entry.1 rest = none := by
          rw [Option.eq_none_iff_forall_ne_some]
          intro value found
          have later := first _ ((mem_iff_lookup restAscending).mpr found)
          exact String.lt_irrefl _ later
        simp [once]
      · simp [same, Ne.symm same]

/-- A name behind all others gets its place at the end. -/
theorem place_eq_append {entries : List (String × Int64)} {name : String} (value : Int64)
    (behind : ∀ entry ∈ entries, entry.1 < name) :
    place name value entries = entries ++ [(name, value)] := by
  induction entries with
  | nil => rfl
  | cons entry rest induction =>
      have before := behind entry List.mem_cons_self
      have different : entry.1 ≠ name := fun same => String.lt_irrefl _ (same ▸ before)
      have notBehind : ¬ name < entry.1 := fun later =>
        String.lt_irrefl _ (String.lt_trans before later)
      rw [place, if_neg different, if_neg notBehind,
        induction fun other member => behind other (List.mem_cons_of_mem _ member)]
      rfl

theorem entries_foldl_set (store : Store) {entries : List (String × Int64)}
    (ascending : (store.entries ++ entries).Pairwise fun first second => first.1 < second.1) :
    (entries.foldl (fun store entry => store.set entry.1 entry.2) store).entries =
      store.entries ++ entries := by
  induction entries generalizing store with
  | nil => exact (List.append_nil _).symm
  | cons entry rest induction =>
      have placed : (store.set entry.1 entry.2).entries = store.entries ++ [entry] := by
        apply place_eq_append
        intro earlier member
        exact (List.pairwise_append.mp ascending).2.2 earlier member entry List.mem_cons_self
      rw [List.append_cons, ← placed] at ascending
      rw [List.foldl_cons, induction _ ascending, placed, List.append_assoc]
      rfl

/-- Setting all variables of a store, from the first to the last, gives the store again. -/
theorem foldl_set_entries (store : Store) :
    store.entries.foldl (fun store entry => store.set entry.1 entry.2) .empty = store := by
  apply Store.ext
  exact entries_foldl_set .empty store.ascending

end Store

/-! ## Lines -/

namespace Text

theorem linesFrom_append_newline {line : List Char} (unbroken : '\n' ∉ line) (start : Nat)
    (rest : List Char) :
    linesFrom start (line ++ '\n' :: rest) =
      ⟨start, line ++ ['\n']⟩ :: linesFrom (start + byteSize line + 1) rest := by
  induction line generalizing start with
  | nil => rfl
  | cons char line induction =>
      rw [List.mem_cons, not_or] at unbroken
      have further := induction unbroken.2 (start + char.utf8Size)
      rw [Nat.add_assoc start] at further
      simp only [List.cons_append, linesFrom, if_neg (Ne.symm unbroken.1), further, byteSize]

/-- Lines that are written one after the other are the lines of the whole, and the last of these
is empty. -/
theorem chars_linesFrom {lines : List (List Char)} (unbroken : ∀ line ∈ lines, '\n' ∉ line)
    (start : Nat) :
    (linesFrom start (lines.flatMap (· ++ ['\n']))).map (·.chars) =
      lines.map (· ++ ['\n']) ++ [[]] := by
  induction lines generalizing start with
  | nil => rfl
  | cons line lines induction =>
      have further := induction fun other member => unbroken other (List.mem_cons_of_mem _ member)
      rw [List.flatMap_cons, List.append_assoc, List.singleton_append,
        linesFrom_append_newline (unbroken line List.mem_cons_self), List.map_cons, further]
      rfl

theorem takeWhile_ne_append {stop : Char} {front : List Char} (absent : stop ∉ front)
    (rest : List Char) : (front ++ stop :: rest).takeWhile (· ≠ stop) = front := by
  have others : ∀ char ∈ front, decide (char ≠ stop) = true := fun char member =>
    decide_eq_true fun same => absent (same ▸ member)
  rw [List.takeWhile_append_of_pos others, List.takeWhile_cons_of_neg (by simp), List.append_nil]

theorem dropWhile_ne_append {stop : Char} {front : List Char} (absent : stop ∉ front)
    (rest : List Char) : (front ++ stop :: rest).dropWhile (· ≠ stop) = stop :: rest := by
  have others : ∀ char ∈ front, decide (char ≠ stop) = true := fun char member =>
    decide_eq_true fun same => absent (same ▸ member)
  rw [List.dropWhile_append_of_pos others, List.dropWhile_cons_of_neg (by simp)]

/-- A newline with a semicolon before it, and any other character alone. -/
def terminatedChar (char : Char) : List Char :=
  if char = '\n' then [';', '\n'] else [char]

/-- The text with a semicolon at the end of every line. -/
def terminated (text : String) : String :=
  String.ofList (text.toList.flatMap terminatedChar)

theorem flatMap_terminatedChar {line : List Char} (unbroken : '\n' ∉ line) :
    line.flatMap terminatedChar = line := by
  induction line with
  | nil => rfl
  | cons char line induction =>
      rw [List.mem_cons, not_or] at unbroken
      rw [List.flatMap_cons, terminatedChar, if_neg (Ne.symm unbroken.1), induction unbroken.2]
      rfl

theorem toList_terminated {text : String} {lines : List (List Char)}
    (equal : text.toList = lines.flatMap (· ++ ['\n']))
    (unbroken : ∀ line ∈ lines, '\n' ∉ line) :
    (terminated text).toList = lines.flatMap (· ++ [';', '\n']) := by
  rw [terminated, String.toList_ofList, equal]
  clear equal
  induction lines with
  | nil => rfl
  | cons line lines induction =>
      have further := induction fun other member => unbroken other (List.mem_cons_of_mem _ member)
      rw [List.flatMap_cons, List.flatMap_append, List.flatMap_append,
        flatMap_terminatedChar (unbroken line List.mem_cons_self), further, List.flatMap_cons]
      rfl

end Text

namespace Store

/-- The line of a variable, without its newline. -/
def entryLine (entry : String × Int64) : List Char :=
  (entry.1 ++ " = " ++ Integer.text entry.2).toList

theorem toList_join_entryText (entries : List (String × Int64)) :
    (String.join (entries.map entryText)).toList =
      (entries.map entryLine).flatMap (· ++ ['\n']) := by
  rw [String.toList_join, List.flatMap_map, List.flatMap_map]
  simp only [entryText, entryLine, String.toList_append]
  rfl

theorem toList_text (store : Store) :
    store.text.toList = (store.entries.map entryLine).flatMap (· ++ ['\n']) :=
  toList_join_entryText store.entries

theorem newline_notMem_text (value : Int64) : '\n' ∉ (Integer.text value).toList := fun member =>
  absurd (Text.isMinus_or_isDigit_of_mem_integerText member) (by decide)

theorem newline_notMem_entryLine {entry : String × Int64} (named : isName entry.1 = true) :
    '\n' ∉ entryLine entry := by
  have noName : '\n' ∉ entry.1.toList := fun member =>
    absurd (isNamePart_of_isName named _ member) (by decide)
  simp [entryLine, noName, newline_notMem_text]

theorem newline_notMem_map_entryLine {entries : List (String × Int64)}
    (named : ∀ entry ∈ entries, isName entry.1 = true) :
    ∀ line ∈ entries.map entryLine, '\n' ∉ line := by
  intro line member
  rcases List.mem_map.mp member with ⟨entry, found, rfl⟩
  exact newline_notMem_entryLine (named entry found)

theorem newline_notMem_entryLines {store : Store}
    (named : ∀ name ∈ store.names, isName name = true) :
    ∀ line ∈ store.entries.map entryLine, '\n' ∉ line :=
  newline_notMem_map_entryLine fun entry member => named entry.1 (List.mem_map_of_mem member)

theorem lines_text {store : Store}
    (unbroken : ∀ line ∈ store.entries.map entryLine, '\n' ∉ line) :
    (Text.lines store.text).map (fun line => String.ofList line.chars) =
      store.entries.map (fun entry => entry.1 ++ " = " ++ Integer.text entry.2 ++ "\n") ++
        [""] := by
  have chars := Text.chars_linesFrom unbroken 0
  rw [← toList_text] at chars
  calc (Text.lines store.text).map (fun line => String.ofList line.chars)
    _ = ((Text.linesFrom 0 store.text.toList).map (·.chars)).map String.ofList := by
      rw [List.map_map]
      rfl
    _ = _ := by
      rw [chars, List.map_append, List.map_map, List.map_map]
      congr 1
      apply List.map_congr_left
      intro entry _
      rw [← String.toList_inj]
      simp [entryLine]

end Store

/-! ## A listing as a program -/

namespace Store

/-- The tokens of the statement that sets a variable. -/
def entryTokens (entry : String × Int64) : List Token :=
  .ident entry.1 :: .equals :: (Expression.literalTokens entry.2.toInt ++ [.semicolon])

theorem spells_entry {entry : String × Int64} (named : isName entry.1 = true)
    {tokens : List Token} {chars : List Char} (rest : Spells tokens chars) :
    Spells (entryTokens entry ++ tokens) (entryLine entry ++ [';', '\n'] ++ chars) := by
  have closing : Spells (.semicolon :: tokens) (';' :: '\n' :: chars) :=
    .token rfl (fun _ _ => rfl) (.blank rfl rest)
  have value := Expression.spells_integerText entry.2.toInt closing
    (Expression.delimited_cons rfl _)
  have equals : Spells (.equals :: _) ('=' :: ' ' :: _) :=
    .token rfl (fun _ _ => rfl) (.blank rfl value)
  have whole : Spells (.ident entry.1 :: _) (entry.1.toList ++ ' ' :: _) :=
    .token named (Expression.endsBefore_of_delimited (Expression.delimited_cons rfl _))
      (.blank rfl equals)
  simpa [entryTokens, entryLine, Integer.text] using whole

theorem spells_entries {entries : List (String × Int64)}
    (named : ∀ entry ∈ entries, isName entry.1 = true) :
    Spells (entries.flatMap entryTokens)
      ((entries.map entryLine).flatMap (· ++ [';', '\n'])) := by
  induction entries with
  | nil => exact .nil
  | cons entry rest induction =>
      have further := induction fun other member => named other (List.mem_cons_of_mem _ member)
      exact spells_entry (named entry List.mem_cons_self) further

/-- The statement that sets a variable is derived and does so. -/
theorem exists_statement_of_entry (entry : String × Int64) :
    ∃ statement : Derivation.Statement,
      statement.lexemes.map (·.token) = entryTokens entry ∧
      ∀ store, statement.tree.eval store = .ok (store.set entry.1 entry.2) := by
  rcases readAs_literalTokens (Integer.fits_toInt entry.2) with
    ⟨derivation, tokens, value, same, evaluated⟩
  rw [Int64.toInt_inj] at same
  refine ⟨⟨entry.1, .point 0, .point 0, .term (.factor derivation), .point 0⟩, ?_, ?_⟩
  · simp [Derivation.Statement.lexemes, Derivation.lexemes, entryTokens, tokens]
  · intro store
    have known : derivation.tree.eval store = .ok entry.2 := by rw [evaluated, same]
    exact Assignment.eval_eq_ok_iff.mpr ⟨entry.2, known, rfl⟩

theorem exists_derivation_of_entries (entries : List (String × Int64)) :
    ∃ derivation : List Derivation.Statement,
      (Derivation.programLexemes derivation).map (·.token) = entries.flatMap entryTokens ∧
      ∀ store, evalStatements store (derivation.map Derivation.Statement.tree) =
        (.ok (), entries.foldl (fun store entry => store.set entry.1 entry.2) store) := by
  induction entries with
  | nil => exact ⟨[], rfl, fun _ => rfl⟩
  | cons entry rest induction =>
      rcases induction with ⟨derivation, tokens, evaluated⟩
      rcases exists_statement_of_entry entry with ⟨statement, first, sets⟩
      refine ⟨statement :: derivation, ?_, fun store => ?_⟩
      · rw [Derivation.programLexemes_cons, List.map_append, first, tokens, List.flatMap_cons]
      · rw [List.map_cons, evalStatements, sets, List.foldl_cons]
        exact evaluated _

end Store

/-- The listing of a store that runs lead to has one line for each variable, in ascending order
of the names. With a semicolon at the end of every line it runs from the empty store to the listed
one, in either mode and without a warning. -/
theorem store_text_runs_back (store : Store) (reachable : store.IsReachable) :
    (∃ entries : List (String × Int64),
      (Text.lines store.text).map (fun line => String.ofList line.chars) =
        entries.map (fun entry => entry.1 ++ " = " ++ Integer.text entry.2 ++ "\n") ++ [""] ∧
      (entries.Pairwise fun first second => first.1 < second.1) ∧
      ∀ name value, (name, value) ∈ entries ↔ store.get? name = some value) ∧
    ∀ mode, (Run.ofText mode (Text.terminated store.text) .empty).result = .ok store ∧
      (Run.ofText mode (Text.terminated store.text) .empty).warnings = [] := by
  have named := reachable.isName_of_mem_names
  have unbroken := Store.newline_notMem_entryLines named
  constructor
  · refine ⟨store.entries, ?_, store.ascending, fun name value => Store.mem_entries_iff⟩
    exact Store.lines_text unbroken
  · intro mode
    have spells : Spells (store.entries.flatMap Store.entryTokens)
        (Text.terminated store.text).toList := by
      rw [Text.toList_terminated store.toList_text unbroken]
      exact Store.spells_entries fun entry member =>
        named entry.1 (List.mem_map_of_mem member)
    rcases lexemes_of_spells spells mode with ⟨tokens, quiet⟩
    rcases Store.exists_derivation_of_entries store.entries with ⟨derivation, derived, evaluated⟩
    constructor
    · have same : (TokenStream.ofText mode (Text.terminated store.text)).lexemes.map (·.token) =
          (Derivation.programLexemes derivation ++ [⟨.eof, .point 0⟩] : List Lexeme).map
            (·.token) := by
        rw [List.map_append, derived]
        exact tokens
      have ran := evaluated .empty
      rw [Store.foldl_set_entries] at ran
      exact execute_of_erased_eq _ ran (Relocation.erased_eq_of_tokens_eq same)
    · simp only [Run.ofText, Run.ofStream, quiet, List.map_nil]

/-- Behind `b = -5; low = -9223372036854775808;`. -/
def negativeValues : Store :=
  (Store.empty.set "b" (-5)).set "low" Int64.minValue

/-- Behind a further `a_1 = b + 5 #;` that skips the unknown character. -/
def signedValues : Store :=
  negativeValues.set "a_1" 0

theorem store_text_runs_back_signedValues :
    signedValues.IsReachable ∧
    signedValues.text = "a_1 = 0\nb = -5\nlow = -9223372036854775808\n" ∧
    (∃ entries : List (String × Int64),
      (Text.lines signedValues.text).map (fun line => String.ofList line.chars) =
        entries.map (fun entry => entry.1 ++ " = " ++ Integer.text entry.2 ++ "\n") ++ [""] ∧
      ("b", -5) ∈ entries) ∧
    (Run.ofText .strict "a_1 = 0;\nb = -5;\nlow = -9223372036854775808;\n" .empty).result =
      .ok signedValues ∧
    (Run.ofText .strict "a_1 = 0;\nb = -5;\nlow = -9223372036854775808;\n" .empty).warnings =
      [] := by
  have negative : (Run.ofText .strict "b = -5; low = -9223372036854775808;" .empty).storeAfter
      .empty = negativeValues := by decide +kernel
  have signed : (Run.ofText .permissive "a_1 = b + 5 #;" negativeValues).storeAfter
      negativeValues = signedValues := by decide +kernel
  have reachable : signedValues.IsReachable := by
    rw [← signed]
    refine .run ?_ _ _
    rw [← negative]
    exact .run .empty _ _
  have program : Text.terminated signedValues.text =
      "a_1 = 0;\nb = -5;\nlow = -9223372036854775808;\n" := by decide +kernel
  rcases store_text_runs_back signedValues reachable with ⟨⟨entries, lines, _, listed⟩, runs⟩
  rw [program] at runs
  exact ⟨reachable, by decide +kernel, ⟨entries, lines, (listed "b" (-5)).mpr (by decide +kernel)⟩,
    runs .strict⟩

end Abacus
