import Abacus.Proofs.Conversations
import Abacus.Proofs.Dumps
import Abacus.Proofs.FailureEffects
import Abacus.Proofs.ReversePolish

/-! # Reports of changes

Behind a line that succeeds the console lists the variables that it changed. Whoever reads these
lists, and sets every variable as listed, has the store of the conversation behind every line. So
nothing is missing in a list, and nothing is listed that was so before. -/

namespace Abacus

open Grammar Text.Utf8

/-! ## Changes -/

namespace Store

variable {before after : Store} {name : String} {value : Int64}

theorem ascending_changesSince (before after : Store) :
    (after.changesSince before).Pairwise fun first second => first.1 < second.1 :=
  after.ascending.filter _

theorem mem_changesSince_iff :
    (name, value) ∈ after.changesSince before ↔
      after.get? name = some value ∧ before.get? name ≠ some value := by
  rw [changesSince, List.mem_filter, mem_entries_iff, bne_iff_ne]

/-- A variable that is not listed is as it was, if it has not left the store. -/
theorem or_lookup_changesSince (kept : name ∈ before.names → name ∈ after.names) :
    (lookup name (after.changesSince before)).or (before.get? name) = after.get? name := by
  have listed {value : Int64} : (name, value) ∈ after.changesSince before ↔
      lookup name (after.changesSince before) = some value :=
    mem_iff_lookup (ascending_changesSince before after)
  cases changed : lookup name (after.changesSince before) with
  | some value => exact (mem_changesSince_iff.mp (listed.mpr changed)).1.symm
  | none =>
      rw [Option.none_or]
      cases found : after.get? name with
      | some value =>
          -- Had it another value before, it would be listed.
          by_cases same : before.get? name = some value
          · exact same
          · have entry := listed.mp (mem_changesSince_iff.mpr ⟨found, same⟩)
            cases changed.symm.trans entry
      | none =>
          rw [Option.eq_none_iff_forall_ne_some]
          intro value known
          rcases mem_names_iff.mp (kept (mem_names_iff.mpr ⟨value, known⟩)) with ⟨later, still⟩
          cases found.symm.trans still

/-- The changes since an earlier store lead from it to the later one. -/
theorem foldl_set_changesSince (kept : ∀ name ∈ before.names, name ∈ after.names) :
    (after.changesSince before).foldl (fun store entry => store.set entry.1 entry.2) before =
      after := by
  apply ext_get?
  intro name
  rw [get?_foldl_set before (ascending_changesSince before after)]
  exact or_lookup_changesSince (kept name)

end Store

theorem mem_names_of_run {mode : Mode} {text : String} {before after : Store}
    (ran : (Run.ofText mode text before).result = .ok after) :
    ∀ name ∈ before.names, name ∈ after.names := by
  rcases exists_program_of_run ran with ⟨program, _, evaluated⟩
  intro name member
  exact (mem_names_iff_of_evalStatements evaluated).mpr (.inl member)

/-! ## Reading a report -/

namespace Store

/-- The variable and the value that a line lists, if it does. -/
def readLine? (line : List Char) : Option (String × Int64) :=
  match line.dropWhile (· ≠ ' ') with
  | ' ' :: '=' :: ' ' :: value =>
      (Integer.ofText? (String.ofList (value.takeWhile (· ≠ '\n')))).map fun value =>
        (String.ofList (line.takeWhile (· ≠ ' ')), value)
  | _ => none

/-- All variables that the lines of a text list. -/
def readEntries (text : String) : List (String × Int64) :=
  (Text.lines text).filterMap (readLine? ·.chars)

theorem readEntries_of_toList {text : String} {lines : List (List Char)}
    (equal : text.toList = lines.flatMap (· ++ ['\n']))
    (unbroken : ∀ line ∈ lines, '\n' ∉ line) :
    readEntries text = lines.filterMap fun line => readLine? (line ++ ['\n']) := by
  calc readEntries text
    _ = ((Text.linesFrom 0 text.toList).map (·.chars)).filterMap readLine? := by
      rw [List.filterMap_map]
      rfl
    _ = _ := by
      rw [equal, Text.chars_linesFrom unbroken, List.filterMap_append, List.filterMap_map]
      exact List.append_nil _

theorem readLine?_entryLine {entry : String × Int64} (named : isName entry.1 = true) :
    readLine? (entryLine entry ++ ['\n']) = some entry := by
  have line : entryLine entry ++ ['\n'] = entry.1.toList ++
      ' ' :: ('=' :: ' ' :: ((Integer.text entry.2).toList ++ ['\n'])) := by
    simp [entryLine]
  rw [line, readLine?, Text.dropWhile_ne_append (Expression.blank_notMem_of_isName named),
    Text.takeWhile_ne_append (Expression.blank_notMem_of_isName named)]
  simp only [Text.takeWhile_ne_append (newline_notMem_text entry.2), String.ofList_toList,
    Integer.ofText?_text]
  rfl

/-- What is listed can be read again. -/
theorem readEntries_join {entries : List (String × Int64)}
    (named : ∀ entry ∈ entries, isName entry.1 = true) :
    readEntries (String.join (entries.map entryText)) = entries := by
  rw [readEntries_of_toList (toList_join_entryText entries) (newline_notMem_map_entryLine named),
    List.filterMap_map]
  induction entries with
  | nil => rfl
  | cons entry rest induction =>
      have further := induction fun other member => named other (List.mem_cons_of_mem _ member)
      rw [List.filterMap_cons, Function.comp_apply,
        readLine?_entryLine (named entry List.mem_cons_self), further]

end Store

/-! ## Failures -/

/-- The line about a failing run is one of three, and the last of them holds a name. -/
theorem summary_cases_of_run {mode : Mode} {text : String} {store : Store} {failure : Failure}
    (failed : (Run.ofText mode text store).result = .error failure) :
    failure.summary = "Error" ∨ failure.summary = "Not a valid program" ∨
      ∃ name, isName name = true ∧ failure.summary = "Variable " ++ name ++ " was not found." := by
  rcases exists_stuckOn_of_execute failed with
    ⟨evaluated, between, rest, reading, _, stuck⟩
  cases stuck with
  | unread due unread =>
      rename_i error left
      rcases error with ⟨cause, span⟩
      cases cause with
      | notAnAssignment found => exact .inr (.inl rfl)
      | _ => exact .inl rfl
  | unevaluated due read fails =>
      rcases read with ⟨shorter, read⟩
      rcases exists_derivation_of_readTo reading with ⟨derivation, split, _⟩
      rcases exists_derivation_of_assignment read with ⟨statement, rfl, rfl⟩
      rcases Expression.exists_firstFailure?_of_eval statement.value.isArithmetic_tree
        (Assignment.eval_eq_error_iff.mp fails) with ⟨node, found, rfl⟩
      rcases Failure.summary_eq_or_identifier (List.find?_some found) with
        summary | ⟨name, span, rfl⟩
      · exact .inl summary
      · exact .inr (.inr ⟨name, isName_of_firstFailure? split found, rfl⟩)

/-- Behind the first blank there is a name and no equals sign. -/
theorem readLine?_variableLine {name : String} (named : isName name = true) :
    Store.readLine? (("Variable " ++ name ++ " was not found.").toList ++ ['\n']) = none := by
  have line : ("Variable " ++ name ++ " was not found.").toList ++ ['\n'] =
      "Variable".toList ++ ' ' :: (name.toList ++ " was not found.\n".toList) := by
    simp
  rw [line, Store.readLine?, Text.dropWhile_ne_append (by decide)]
  cases chars : name.toList with
  | nil => rfl
  | cons first others =>
      have part := isNamePart_of_isName named first (by rw [chars]; exact List.mem_cons_self)
      have different : first ≠ '=' := by
        rintro rfl
        contradiction
      simp [different]

/-- The line about a failing run lists no variable. -/
theorem readEntries_summary {mode : Mode} {text : String} {store : Store} {failure : Failure}
    (failed : (Run.ofText mode text store).result = .error failure) :
    Store.readEntries (failure.summary ++ "\n") = [] := by
  rcases summary_cases_of_run failed with summary | summary | ⟨name, named, summary⟩
  · rw [summary]
    decide
  · rw [summary]
    decide
  · have equal : (failure.summary ++ "\n").toList =
        [("Variable " ++ name ++ " was not found.").toList].flatMap (· ++ ['\n']) := by
      rw [summary]
      simp
    have unbroken : ∀ line ∈ [("Variable " ++ name ++ " was not found.").toList], '\n' ∉ line :=
      List.forall_mem_singleton.mpr (newline_notMem_variableLine named)
    rw [Store.readEntries_of_toList equal unbroken, List.filterMap_cons,
      readLine?_variableLine named]
    rfl

/-! ## Answers to lines -/

namespace Console

/-- What a line can come to: what is written, and the store to go on with. -/
inductive Answers (mode : Mode) (store : Store) (line : String) : String → Option Store → Prop
  | blank (equal : withoutLineEnd line = "") : Answers mode store line "" (some store)
  | ending (equal : withoutLineEnd line = ".exit") : Answers mode store line "" none
  | listing (equal : withoutLineEnd line = ".vars") :
      Answers mode store line store.text (some store)
  | changing {after : Store} (source : isSource (withoutLineEnd line) = true)
      (ran : (Run.ofText mode (withoutLineEnd line) store).result = .ok after) :
      Answers mode store line (String.join ((after.changesSince store).map Store.entryText))
        (some after)
  | failing {failure : Failure} (source : isSource (withoutLineEnd line) = true)
      (failed : (Run.ofText mode (withoutLineEnd line) store).result = .error failure) :
      Answers mode store line (failure.summary ++ "\n") (some store)

theorem answers_runLine (mode : Mode) (store : Store) (line : String) :
    Answers mode store line (runLine mode store line).output.out
      (runLine mode store line).next := by
  unfold runLine
  split
  · next equal => exact .blank equal
  · next equal => exact .ending equal
  · next equal => exact .listing equal
  · next notEmpty notExit notVars =>
      have source := isSource_of_ne notEmpty notVars notExit
      simp only
      cases ran : (Run.ofText mode (withoutLineEnd line) store).result with
      | ok after =>
          have answer := Answers.changing source ran
          simpa [Output.out_append, warningsOutput] using answer
      | error failure =>
          have answer := Answers.failing source ran
          simpa [Output.out_append, warningsOutput, failureOutput] using answer

namespace Exchange

/-- The variables that the answer to a source lists. -/
def reported (exchange : Exchange) : List (String × Int64) :=
  if isSource (withoutLineEnd exchange.line) then Store.readEntries exchange.reply.output.out
  else []

/-- The store behind the line. -/
def after (exchange : Exchange) : Store := exchange.reply.next.getD exchange.before

/-- The line is a source, and its run succeeds. -/
def RunsTo (mode : Mode) (exchange : Exchange) (after : Store) : Prop :=
  isSource (withoutLineEnd exchange.line) = true ∧
    (Run.ofText mode (withoutLineEnd exchange.line) exchange.before).result = .ok after

def IsAnswered (mode : Mode) (exchange : Exchange) : Prop :=
  Answers mode exchange.before exchange.line exchange.reply.output.out exchange.reply.next

theorem isAnswered_ofLine (mode : Mode) (store : Store) (line : String) :
    (ofLine mode store line).IsAnswered mode := by
  simp only [IsAnswered, ofLine]
  exact answers_runLine mode store line

theorem silent_of_not_isSource (mode : Mode) (exchange : Exchange)
    (command : isSource (withoutLineEnd exchange.line) = false) :
    (∀ after, ¬ exchange.RunsTo mode after) ∧ exchange.reported = [] := by
  constructor
  · rintro after ⟨source, _⟩
    cases command.symm.trans source
  · rw [reported, command]
    rfl

section Answered

variable {mode : Mode} {exchange : Exchange} (answered : exchange.IsAnswered mode)
include answered

theorem out_of_vars (equal : withoutLineEnd exchange.line = ".vars") :
    exchange.reply.output.out = exchange.before.text := by
  rcases exchange with ⟨line, before, ⟨⟨out, err⟩, next⟩⟩
  change Answers mode before line out next at answered
  change withoutLineEnd line = ".vars" at equal
  cases answered with
  | blank other | ending other =>
      rw [equal] at other
      contradiction
  | listing _ => rfl
  | changing source _ | failing source _ =>
      rw [equal] at source
      contradiction

variable (named : ∀ name ∈ exchange.before.names, isName name = true)
include named

/-- Only the answer to a source that succeeds lists variables, and these are the changed ones. -/
theorem reported_cases :
    (exchange.RunsTo mode exchange.after ∧
      exchange.reported = exchange.after.changesSince exchange.before ∧
      exchange.reply.output.out = String.join (exchange.reported.map Store.entryText)) ∨
    ((∀ after, ¬ exchange.RunsTo mode after) ∧ exchange.reported = [] ∧
      exchange.after = exchange.before) := by
  -- The answer is taken apart first, so that its text and its store are variables.
  have silent := silent_of_not_isSource mode exchange
  rcases exchange with ⟨line, before, ⟨⟨out, err⟩, next⟩⟩
  change Answers mode before line out next at answered
  change ∀ name ∈ before.names, isName name = true at named
  change isSource (withoutLineEnd line) = false → _ at silent
  cases answered with
  | blank equal | ending equal | listing equal =>
      rw [equal] at silent
      rcases silent rfl with ⟨idle, unlisted⟩
      exact .inr ⟨idle, unlisted, rfl⟩
  | changing source ran =>
      rename_i after
      have read := Store.readEntries_join fun entry (member : entry ∈ after.changesSince before) =>
        isName_of_run named ran entry.1 (List.mem_map_of_mem (List.mem_filter.mp member).1)
      refine .inl ⟨⟨source, ran⟩, ?_, ?_⟩
      · rw [reported, if_pos source, read]
        rfl
      · rw [reported, if_pos source, read]
  | failing source failed =>
      refine .inr ⟨?_, ?_, rfl⟩
      · rintro after ⟨_, ran⟩
        cases failed.symm.trans ran
      · rw [reported, if_pos source, readEntries_summary failed]

/-- The listed variables lead from the store before the line to the one behind it. -/
theorem after_eq_foldl_set :
    exchange.after =
      exchange.reported.foldl (fun store entry => store.set entry.1 entry.2) exchange.before := by
  rcases reported_cases answered named with ⟨⟨_, ran⟩, equal, _⟩ | ⟨_, equal, unchanged⟩
  · rw [equal, Store.foldl_set_changesSince (mem_names_of_run ran)]
  · rw [equal, unchanged, List.foldl_nil]

theorem isName_of_mem_after : ∀ name ∈ exchange.after.names, isName name = true := by
  rcases reported_cases answered named with ⟨⟨_, ran⟩, _⟩ | ⟨_, _, unchanged⟩
  · exact isName_of_run named ran
  · rw [unchanged]
    exact named

theorem out_of_runsTo {after : Store} (runs : exchange.RunsTo mode after) :
    exchange.reply.output.out = String.join (exchange.reported.map Store.entryText) := by
  rcases reported_cases answered named with ⟨_, _, out⟩ | ⟨idle, _⟩
  · exact out
  · exact absurd runs (idle after)

theorem ascending_reported :
    exchange.reported.Pairwise fun first second => first.1 < second.1 := by
  rcases reported_cases answered named with ⟨_, equal, _⟩ | ⟨_, equal, _⟩
  · rw [equal]
    exact Store.ascending_changesSince _ _
  · rw [equal]
    exact .nil

/-- A variable is listed exactly if a run succeeds that gives it a value it did not have. -/
theorem mem_reported_iff {name : String} {value : Int64} :
    (name, value) ∈ exchange.reported ↔
      ∃ after, exchange.RunsTo mode after ∧ after.get? name = some value ∧
        exchange.before.get? name ≠ some value := by
  rcases reported_cases answered named with ⟨runs, equal, _⟩ | ⟨idle, equal, _⟩
  · rw [equal, Store.mem_changesSince_iff]
    constructor
    · intro changed
      exact ⟨_, runs, changed⟩
    · rintro ⟨after, ⟨_, ran⟩, changed⟩
      cases runs.2.symm.trans ran
      exact changed
  · simp [equal, idle]

end Answered

end Exchange

/-! ## Conversations -/

/-- The store that comes of setting all variables as they are listed. -/
def rebuilt (store : Store) (exchanges : List Exchange) : Store :=
  (exchanges.flatMap Exchange.reported).foldl (fun store entry => store.set entry.1 entry.2) store

theorem rebuilt_append (store : Store) (first second : List Exchange) :
    rebuilt store (first ++ second) = rebuilt (rebuilt store first) second := by
  rw [rebuilt, List.flatMap_append, List.foldl_append]
  rfl

theorem rebuilt_singleton {mode : Mode} {exchange : Exchange}
    (answered : exchange.IsAnswered mode)
    (named : ∀ name ∈ exchange.before.names, isName name = true) :
    rebuilt exchange.before [exchange] = exchange.after := by
  rw [Exchange.after_eq_foldl_set answered named, rebuilt, List.flatMap_singleton]

/-- Every line is answered from the store that comes of what is listed before it. -/
theorem exchange_of_eq_append {mode : Mode} {store : Store} {lines : List String}
    (named : ∀ name ∈ store.names, isName name = true) {earlier later : List Exchange}
    {exchange : Exchange} (split : exchanges mode store lines = earlier ++ exchange :: later) :
    exchange.IsAnswered mode ∧ exchange.before = rebuilt store earlier ∧
      ∀ name ∈ exchange.before.names, isName name = true := by
  induction lines generalizing store earlier with
  | nil => simp [exchanges] at split
  | cons line rest induction =>
      have answered := Exchange.isAnswered_ofLine mode store line
      rw [exchanges] at split
      cases earlier with
      | nil =>
          cases (List.cons.inj split).1
          exact ⟨answered, rfl, named⟩
      | cons first earlier =>
          rcases List.cons.inj split with ⟨rfl, further⟩
          split at further
          · simp at further
          · next after continues =>
              -- What the first line lists leads to the store that the others start from.
              have same : (Exchange.ofLine mode store line).after = after := by
                rw [Exchange.after, continues]
                rfl
              have still := Exchange.isName_of_mem_after answered named
              rw [same] at still
              rcases induction still further with ⟨laterAnswered, before, laterNamed⟩
              refine ⟨laterAnswered, ?_, laterNamed⟩
              calc exchange.before
                _ = rebuilt after earlier := before
                _ = rebuilt (rebuilt store [Exchange.ofLine mode store line]) earlier := by
                  rw [← same, ← rebuilt_singleton answered named]
                  rfl
                _ = rebuilt store (Exchange.ofLine mode store line :: earlier) :=
                  (rebuilt_append store [_] earlier).symm

end Console

/-- A conversation is answered line by line, and what the answers to its sources list tells the
store: behind every line it is what comes of setting all variables as they were listed so far, and
this is what a dump shows. The answer to a line lists names in ascending order, and exactly those
variables for which the line gives another value by a run that succeeds. -/
theorem reports_rebuild_store (elapsed : String) (find : String → Document) (mode : Mode)
    (text : String) :
    (Console.perform elapsed find (encode text) (.runLines mode)).EndsWith 0
      (Console.transcript (Console.exchanges mode .empty (Console.inputLines text))) ∧
    ∀ (earlier : List Console.Exchange) (exchange : Console.Exchange)
      (later : List Console.Exchange),
      Console.exchanges mode .empty (Console.inputLines text) = earlier ++ exchange :: later →
      exchange.before = Console.rebuilt .empty earlier ∧
      exchange.after = Console.rebuilt .empty (earlier ++ [exchange]) ∧
      (Console.withoutLineEnd exchange.line = ".vars" →
        exchange.reply.output.out = (Console.rebuilt .empty earlier).text) ∧
      (∀ after, exchange.RunsTo mode after →
        exchange.reply.output.out = String.join (exchange.reported.map Store.entryText)) ∧
      (exchange.reported.Pairwise fun first second => first.1 < second.1) ∧
      ∀ name value, (name, value) ∈ exchange.reported ↔
        ∃ after, exchange.RunsTo mode after ∧ after.get? name = some value ∧
          exchange.before.get? name ≠ some value := by
  refine ⟨Console.perform_runLines elapsed find text mode, ?_⟩
  intro earlier exchange later split
  rcases Console.exchange_of_eq_append (fun _ member => by contradiction) split with
    ⟨answered, before, named⟩
  refine ⟨before, ?_, ?_, ?_, ?_, ?_⟩
  · rw [Console.rebuilt_append, ← before, Console.rebuilt_singleton answered named]
  · intro dumps
    rw [← before]
    exact Console.Exchange.out_of_vars answered dumps
  · intro after runs
    exact Console.Exchange.out_of_runsTo answered named runs
  · exact Console.Exchange.ascending_reported answered named
  · intro name value
    exact Console.Exchange.mem_reported_iff answered named

/-- The third line fails behind its first assignment. The fourth gives one variable the value that
it has and another one a new value, and the last is not reached. -/
def conversationLines : List String :=
  ["x = 2; y = x;\r\n", "\n", "x = 3; z = q;\n", "x = 2; y = -7;\n", ".vars\n", "01 = 3;\n",
    ".exit\n", "x = 9;"]

def answeredConversation : List Console.Exchange :=
  Console.exchanges .permissive .empty conversationLines

theorem reports_rebuild_store_conversation :
    (Console.perform "1ms" (fun _ => .unreadable .notFound) (encode (String.join conversationLines))
      (.runLines .permissive)).EndsWith 0
        (">> x = 2\ny = 2\n>> >> Variable q was not found.\n>> y = -7\n>> x = 2\ny = -7\n" ++
          ">> Not a valid program\n>> ") ∧
    (∃ changing later, answeredConversation = answeredConversation.take 3 ++ changing :: later ∧
      changing.line = "x = 2; y = -7;\n" ∧
      changing.before = (Store.empty.set "x" 2).set "y" 2 ∧
      ("y", -7) ∈ changing.reported ∧ ("x", 2) ∉ changing.reported) ∧
    ∃ dumping later, answeredConversation = answeredConversation.take 4 ++ dumping :: later ∧
      dumping.line = ".vars\n" ∧
      dumping.reply.output.out = ((Store.empty.set "x" 2).set "y" (-7)).text := by
  rcases reports_rebuild_store "1ms" (fun _ => .unreadable .notFound) .permissive
    (String.join conversationLines) with ⟨ends, reports⟩
  have cut : Console.inputLines (String.join conversationLines) = conversationLines := by
    decide +kernel
  rw [cut] at ends reports
  have ⟨transcript, linesBehindThree, linesBehindFour, knownBehindThree, knownBehindFour⟩ :
      Console.transcript answeredConversation =
        ">> x = 2\ny = 2\n>> >> Variable q was not found.\n>> y = -7\n>> x = 2\ny = -7\n" ++
          ">> Not a valid program\n>> " ∧
      (answeredConversation.drop 3).map (·.line) =
        ["x = 2; y = -7;\n", ".vars\n", "01 = 3;\n", ".exit\n"] ∧
      (answeredConversation.drop 4).map (·.line) = [".vars\n", "01 = 3;\n", ".exit\n"] ∧
      Console.rebuilt .empty (answeredConversation.take 3) =
        (Store.empty.set "x" 2).set "y" 2 ∧
      Console.rebuilt .empty (answeredConversation.take 4) =
        (Store.empty.set "x" 2).set "y" (-7) := by decide +kernel
  refine ⟨transcript ▸ ends, ?_, ?_⟩
  · rcases List.map_eq_cons_iff.mp linesBehindThree with ⟨changing, later, dropped, line, _⟩
    have split := (List.take_append_drop 3 answeredConversation).symm
    rw [dropped] at split
    rcases reports _ _ _ split with ⟨before, _, _, _, _, listed⟩
    replace before := before.trans knownBehindThree
    refine ⟨changing, later, split, line, before, (listed _ _).mpr ?_, fun unchanged => ?_⟩
    · refine ⟨(Store.empty.set "x" 2).set "y" (-7), ?_, by decide +kernel, ?_⟩
      · rw [Console.Exchange.RunsTo, line, before]
        decide +kernel
      · rw [before]
        decide +kernel
    · rcases (listed _ _).mp unchanged with ⟨_, _, _, different⟩
      rw [before] at different
      exact different (by decide +kernel)
  · rcases List.map_eq_cons_iff.mp linesBehindFour with ⟨dumping, later, dropped, line, _⟩
    have split := (List.take_append_drop 4 answeredConversation).symm
    rw [dropped] at split
    rcases reports _ _ _ split with ⟨_, _, dumped, _⟩
    rw [line] at dumped
    refine ⟨dumping, later, split, line, ?_⟩
    rw [dumped (by decide +kernel)]
    exact congrArg Store.text knownBehindFour

end Abacus
