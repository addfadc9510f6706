import Abacus.Proofs.Routines

/-! # Moving forward

A routine leaves an end of the tokens that there were, and for a value it takes at least a certain
number of them. This is so of the smallest routines, and it is kept where one follows another. In
a state with a current token a routine ends because reading does, and in one without it there is
nothing to read. So every routine ends in every state. -/

namespace Abacus

open Grammar

namespace BufferedParser

/-! ## What is left -/

/-- What the routine leaves is an end of the tokens, and for a value it takes at least so many. -/
def Forward (least : Nat) (routine : Routine α) : Prop :=
  ∀ state result after, routine state = some (result, after) →
    after.remaining <:+ state.remaining ∧
      ∀ value, result = .ok value → after.remaining.length + least ≤ state.remaining.length

theorem forward_atLimit (least : Nat) : Forward least (atLimit : Routine α) := by
  intro state result after run
  cases run

theorem forward_fail (least : Nat) (error : SyntaxError) :
    Forward least (fail error : Routine α) := by
  intro state result after run
  cases run
  exact ⟨List.suffix_rfl, fun value given => by cases given⟩

theorem forward_pure (value : α) : Forward 0 (pure value : Routine α) := by
  intro state result after run
  cases run
  exact ⟨List.suffix_rfl, fun _ _ => Nat.le_refl _⟩

theorem forward_look {least : Nat} {further : BufferedParser → Routine α}
    (forward : ∀ state, Forward least (further state)) : Forward least (look >>= further) :=
  fun state => forward state state

theorem remaining_advance (state : BufferedParser) :
    state.advance.2.remaining = state.buffer := by
  rcases state with ⟨current, buffer, failed⟩
  cases buffer <;> rfl

section Sequences

variable {least more : Nat} {first : Routine α} {further : α → Routine β}

theorem Forward.weaken (forward : Forward more first) (less : least ≤ more) :
    Forward least first := by
  intro state result after run
  refine ⟨(forward _ _ _ run).1, ?_⟩
  intro value given
  have takes := (forward _ _ _ run).2 value given
  omega

/-- What is taken one after the other adds up. -/
theorem Forward.bind (forward : Forward least first)
    (forwardNext : ∀ value, Forward more (further value)) :
    Forward (least + more) (first >>= further) := by
  intro state result after run
  cases read : first state with
  | none =>
      simp only [Bind.bind, read] at run
      contradiction
  | some pair =>
      rcases pair with ⟨middle, behind⟩
      rcases forward _ _ _ read with ⟨suffix, takes⟩
      cases middle with
      | error error =>
          rw [bind_of_error read] at run
          cases run
          exact ⟨suffix, fun value given => by cases given⟩
      | ok value =>
          rw [bind_of_ok read] at run
          rcases forwardNext value _ _ _ run with ⟨suffixNext, takesNext⟩
          refine ⟨suffixNext.trans suffix, ?_⟩
          intro final given
          have taken := takes value rfl
          have takenNext := takesNext final given
          omega

end Sequences

theorem forward_next : Forward 0 next := by
  intro state result after run
  cases run
  rw [remaining_advance]
  have suffix : state.buffer <:+ state.remaining := List.suffix_append _ _
  exact ⟨suffix, fun _ _ => suffix.length_le⟩

/-- What goes on only with a token has taken one. -/
theorem forward_next_bind {least : Nat} {further : Option Lexeme → Routine α}
    (absent : Forward (least + 1) (further none))
    (found : ∀ lexeme, Forward least (further (some lexeme))) :
    Forward (least + 1) (next >>= further) := by
  intro state result after run
  rcases state with ⟨current, buffer, failed⟩
  rw [bind_of_ok rfl] at run
  cases current with
  | none =>
      rcases absent _ _ _ run with ⟨suffix, takes⟩
      rw [remaining_advance] at suffix takes
      exact ⟨suffix, takes⟩
  | some lexeme =>
      rcases found lexeme _ _ _ run with ⟨suffix, takes⟩
      rw [remaining_advance] at suffix takes
      refine ⟨suffix.trans (List.suffix_cons _ _), ?_⟩
      intro value given
      exact Nat.succ_le_succ (takes value given)

/-! ## Single tokens -/

/-- The routine takes the current token, or it fails and everything stays as it was. -/
def TakesOne (routine : Routine α) : Prop :=
  ∀ state, (∃ error, routine state = some (.error error, state)) ∨
    ∃ value, state.current ≠ none ∧ routine state = some (.ok value, state.advance.2)

theorem takesOne_expect (token : Token) : TakesOne (expect token) := by
  rintro ⟨current, buffer, failed⟩
  cases current with
  | none => exact .inl ⟨_, rfl⟩
  | some lexeme =>
      by_cases same : lexeme.token = token
      · exact .inr ⟨lexeme.span, Option.some_ne_none _, if_pos same⟩
      · exact .inl ⟨_, if_neg same⟩

theorem takesOne_expectName : TakesOne expectName := by
  rintro ⟨current, buffer, failed⟩
  match current with
  | none => exact .inl ⟨_, rfl⟩
  | some ⟨token, span⟩ =>
      cases token with
      | ident name => exact .inr ⟨(name, span), Option.some_ne_none _, rfl⟩
      | _ => exact .inl ⟨_, rfl⟩

namespace TakesOne

variable {routine : Routine α} (takesOne : TakesOne routine)
include takesOne

theorem forward : Forward 1 routine := by
  intro state result after run
  rcases takesOne state with ⟨error, fails⟩ | ⟨value, present, gives⟩
  · cases run.symm.trans fails
    exact forward_fail 1 error _ _ _ rfl
  · cases run.symm.trans gives
    rcases state with ⟨current, buffer, failed⟩
    rw [remaining_advance]
    cases current with
    | none => contradiction
    | some lexeme => exact ⟨List.suffix_cons _ _, fun _ _ => Nat.le_refl _⟩

theorem eq_of_error {state after : BufferedParser} {error : SyntaxError}
    (run : routine state = some (.error error, after)) : after = state := by
  rcases takesOne state with ⟨cause, fails⟩ | ⟨value, _, gives⟩
  · cases run.symm.trans fails
    rfl
  · cases run.symm.trans gives

end TakesOne

/-! ## Parts of the grammar -/

theorem forward_literal : Forward 1 literal := by
  apply forward_next_bind
  · exact forward_fail _ _
  · rintro ⟨token, span⟩
    cases token with
    | int digits =>
        dsimp only
        split
        · exact forward_pure _
        · exact forward_fail _ _
    | _ => exact forward_fail _ _

theorem forward_operandBehind {operand : Routine Expression} (forward : Forward 0 operand)
    (isDue : Token → Bool) (expected : String) (build : Lexeme → Expression → Expression) :
    Forward 1 (operandBehind isDue expected operand build) := by
  apply forward_next_bind
  · exact forward_fail _ _
  · intro first
    dsimp only
    split
    · exact forward.bind fun value => forward_pure _
    · exact forward_fail _ _

theorem forward_chain {right : Routine Expression} (forward : Forward 0 right) (layer : Layer)
    (left : Expression) : Forward 0 (chain layer left right) := by
  apply forward_look
  intro state
  split
  · exact (forward_operandBehind forward _ _ _).weaken (Nat.zero_le _)
  · exact forward_pure _

theorem forward_leastLiteral : Forward 1 leastLiteral :=
  (takesOne_expect .minus).forward.bind fun _ => forward_next.bind fun _ => forward_pure _

theorem forward_factor {sum operand : Routine Expression} (forwardSum : Forward 0 sum)
    (forwardOperand : Forward 0 operand) : Forward 1 (factor sum operand) := by
  apply forward_look
  intro state
  split
  · exact forward_fail _ _
  · split
    · have closes := (takesOne_expect .rightParen).forward.weaken (Nat.zero_le 1)
      exact (takesOne_expect .leftParen).forward.bind fun opening =>
        forwardSum.bind fun inner =>
        closes.bind fun closing => forward_pure _
    · exact forward_literal
    · exact takesOne_expectName.forward.bind fun found => forward_pure _
    · split
      · split
        · exact forward_leastLiteral
        · exact forward_operandBehind forwardOperand _ _ _
      · exact forward_fail _ _

theorem forward_expression (layer : Layer) (limit : Nat) : Forward 1 (expression layer limit) := by
  -- The induction is on the calls that are allowed, not on the tokens.
  induction limit generalizing layer with
  | zero => exact forward_atLimit 1
  | succ limit induction =>
      have calls : ∀ layer, Forward 0 (expression layer limit) := fun layer =>
        (induction layer).weaken (Nat.zero_le _)
      rw [expression]
      split
      · exact (induction _).bind fun left => forward_chain (calls layer) layer left
      · exact forward_factor (calls .sum) (calls .factor)

theorem forward_assignment (limit : Nat) : Forward 4 (assignment limit) := by
  apply forward_look
  intro state
  split
  · exact forward_fail _ _
  -- A name, the equals sign, at least one token for the value, and the semicolon.
  · exact takesOne_expectName.forward.bind fun name =>
      (takesOne_expect .equals).forward.bind fun equals =>
      (forward_expression .sum limit).bind fun value =>
      (takesOne_expect .semicolon).forward.bind fun closing => forward_pure _
  · exact forward_fail _ _

theorem forward_statements (limit : Nat) : Forward 0 (statements limit) := by
  induction limit with
  | zero => exact forward_atLimit 0
  | succ limit induction =>
      apply forward_look
      intro state
      split
      · exact ((forward_assignment limit).weaken (Nat.zero_le _)).bind fun first =>
          induction.bind fun further => forward_pure _
      · exact forward_pure _

theorem forward_readProgram (limit : Nat) : Forward 0 (readProgram limit) :=
  (forward_statements limit).bind fun _ => forward_pure _

theorem forward_program (limit : Nat) : Forward 0 (program limit) := by
  intro state result after run
  rcases Option.map_eq_some_iff.mp run with ⟨⟨unsealed, behind⟩, read, equal⟩
  rcases forward_readProgram limit _ _ _ read with ⟨suffix, takes⟩
  cases unsealed <;> cases equal <;> exact ⟨suffix, takes⟩

/-! ## States without a current token -/

/-- Three calls go through the layers, and the innermost one finds no token to look at. -/
theorem expression_of_none (layer : Layer) (buffer : List Lexeme) (failed : Bool) {limit : Nat}
    (enough : 3 ≤ limit) :
    expression layer limit ⟨none, buffer, failed⟩ =
      some (.error .unexpectedEnd, ⟨none, buffer, failed⟩) := by
  obtain ⟨limit, rfl⟩ := Nat.exists_eq_add_of_le' enough
  cases layer <;> rfl

/-- Tokens without a current one are no program, unless the parser has failed already. -/
theorem readProgram_of_none {buffer : List Lexeme} (inhabited : buffer ≠ []) (failed : Bool)
    {limit : Nat} (enough : 0 < limit) :
    readProgram limit ⟨none, buffer, failed⟩ =
      some (if failed then .ok (.ofStatements []) else .error .unexpectedEnd,
        ⟨none, buffer, failed⟩) := by
  obtain ⟨limit, rfl⟩ := Nat.exists_eq_add_of_le' enough
  cases buffer with
  | nil => contradiction
  | cons first rest => cases failed <;> rfl

/-! ## Every state -/

/-- What a routine does in one state. -/
structure Progress (least : Nat) (routine : Nat → Routine α)
    (run : Parser → Except SyntaxError α × Parser) (state : BufferedParser)
    (result : Except SyntaxError α) (after : BufferedParser) : Prop where
  /-- Three calls for each token and three more are never used up. -/
  ends : ∀ limit, 3 * state.remaining.length + 3 ≤ limit →
    routine limit state = some (result, after)
  suffix : after.remaining <:+ state.remaining
  takes : ∀ value, result = .ok value →
    after.remaining.length + least ≤ state.remaining.length
  /-- The parser with the same tokens does the same. -/
  agrees : state.Filled → after.Filled ∧ run state.parser = (result, after.parser)

def MovesForward (least : Nat) (routine : Nat → Routine α)
    (run : Parser → Except SyntaxError α × Parser) : Prop :=
  ∀ state, ∃ result after, Progress least routine run state result after

theorem parser_ofParser (parser : Parser) : (ofParser parser).parser = parser := by
  rcases parser with ⟨input, failed⟩
  cases input <;> rfl

theorem filled_ofParser (parser : Parser) : (ofParser parser).Filled := by
  intro empty
  exact congrArg List.tail (List.head?_eq_none_iff.mp empty)

theorem ofParser_of_filled {state : BufferedParser} (filled : state.Filled) :
    ofParser state.parser = state := by
  rcases state with ⟨current, buffer, failed⟩
  cases current with
  | none =>
      cases filled rfl
      rfl
  | some lexeme => rfl

section Routines

variable {least : Nat} {routine : Nat → Routine α}
  (forward : ∀ limit, Forward least (routine limit))
include forward

/-- A state is that of a parser, or its current token is missing. -/
theorem MovesForward.of_follows {run : Parser → Except SyntaxError α × Parser}
    (follows : ∀ parser limit, 3 * parser.remaining.length + 3 ≤ limit →
      routine limit (ofParser parser) = some ((run parser).1, ofParser (run parser).2))
    (unfilled : ∀ buffer failed, buffer ≠ [] → ∃ result after, ∀ limit, 3 ≤ limit →
      routine limit ⟨none, buffer, failed⟩ = some (result, after)) :
    MovesForward least routine run := by
  intro state
  by_cases filled : state.Filled
  · have ends : ∀ limit, 3 * state.remaining.length + 3 ≤ limit → routine limit state =
        some ((run state.parser).1, ofParser (run state.parser).2) := by
      intro limit enough
      have followed := follows state.parser limit enough
      rwa [ofParser_of_filled filled] at followed
    rcases forward _ _ _ _ (ends _ (Nat.le_refl _)) with ⟨suffix, takes⟩
    refine ⟨_, _, ends, suffix, takes, fun _ => ⟨filled_ofParser _, ?_⟩⟩
    rw [parser_ofParser]
  · rcases state with ⟨current, buffer, failed⟩
    rcases Classical.not_imp.mp filled with ⟨rfl, inhabited⟩
    rcases unfilled buffer failed inhabited with ⟨result, after, finds⟩
    have ends : ∀ limit, 3 * buffer.length + 3 ≤ limit →
        routine limit ⟨none, buffer, failed⟩ = some (result, after) := by
      intro limit enough
      exact finds limit (by omega)
    rcases forward _ _ _ _ (ends _ (Nat.le_refl _)) with ⟨suffix, takes⟩
    exact ⟨result, after, ends, suffix, takes, fun placed => absurd placed filled⟩

theorem MovesForward.of_reads {part : (input : List Lexeme) → Outcome α input}
    (reads : ∀ input limit, 3 * input.length + 3 ≤ limit → Reads (routine limit) (part input))
    (unfilled : ∀ buffer failed, ∃ after, ∀ limit, 3 ≤ limit →
      routine limit ⟨none, buffer, failed⟩ = some (.error .unexpectedEnd, after)) :
    MovesForward least routine (·.read part) := by
  apply MovesForward.of_follows forward
  · intro parser limit enough
    exact reads parser.remaining limit enough parser.failed
  · intro buffer failed _
    exact ⟨_, unfilled buffer failed⟩

end Routines

theorem movesForward_expect (token : Token) :
    MovesForward 1 (fun _ => expect token) (·.read (Grammar.expect token)) := by
  apply MovesForward.of_reads fun _ => (takesOne_expect token).forward
  · intro input _ _
    exact reads_expect token input
  · intro buffer failed
    exact ⟨_, fun _ _ => rfl⟩

theorem movesForward_expectName :
    MovesForward 1 (fun _ => expectName) (·.read Grammar.expectName) := by
  apply MovesForward.of_reads fun _ => takesOne_expectName.forward
  · intro input _ _
    exact reads_expectName input
  · intro buffer failed
    exact ⟨_, fun _ _ => rfl⟩

theorem movesForward_literal : MovesForward 1 (fun _ => literal) (·.read Grammar.literal) := by
  apply MovesForward.of_reads fun _ => forward_literal
  · intro input _ _
    exact reads_literal input
  · intro buffer failed
    exact ⟨_, fun _ _ => rfl⟩

theorem movesForward_expression (layer : Layer) :
    MovesForward 1 (expression layer) (·.read (Grammar.expression layer)) := by
  apply MovesForward.of_reads (forward_expression layer)
  · intro input limit enough
    have shallow : layer.depth ≤ 2 := by cases layer <;> decide
    exact reads_expression layer input (by omega)
  · intro buffer failed
    exact ⟨_, fun _ enough => expression_of_none layer buffer failed enough⟩

theorem movesForward_signed : MovesForward 1 signed (·.read Grammar.signed) := by
  have forward : ∀ limit, Forward 1 (signed limit) := fun limit =>
    forward_operandBehind ((forward_expression .factor limit).weaken (Nat.zero_le _)) _ _ _
  apply MovesForward.of_reads forward
  · intro input limit enough
    exact reads_signed input (by omega)
  · intro buffer failed
    exact ⟨_, fun _ _ => rfl⟩

theorem movesForward_assignment : MovesForward 4 assignment (·.read Grammar.assignment) := by
  apply MovesForward.of_reads forward_assignment
  · intro input limit enough
    exact reads_assignment input (by omega)
  · intro buffer failed
    exact ⟨_, fun _ _ => rfl⟩

theorem movesForward_readProgram : MovesForward 0 readProgram Parser.readProgram := by
  apply MovesForward.of_follows forward_readProgram
  · intro parser limit enough
    exact readProgram_ofParser parser (by omega)
  · intro buffer failed inhabited
    exact ⟨_, _, fun _ enough => readProgram_of_none inhabited failed (by omega)⟩

theorem movesForward_program : MovesForward 0 program Parser.program := by
  apply MovesForward.of_follows forward_program
  · intro parser limit enough
    exact program_ofParser parser (by omega)
  · intro buffer failed inhabited
    exact ⟨_, _, fun _ enough =>
      congrArg (Option.map sealed) (readProgram_of_none inhabited failed (by omega))⟩

/-- Every routine of a parser ends, with a current token or without one, whatever stands behind it.
It leaves an end of the tokens, also if it fails. The value of an expression or of a part of one
takes at least one token, and a statement at least four. Where a token or a name is expected in
vain, everything stays as it was. -/
theorem routines_move_forward :
    (∀ layer, MovesForward 1 (expression layer) (·.read (Grammar.expression layer))) ∧
    MovesForward 1 signed (·.read Grammar.signed) ∧
    MovesForward 1 (fun _ => literal) (·.read Grammar.literal) ∧
    MovesForward 4 assignment (·.read Grammar.assignment) ∧
    MovesForward 0 readProgram Parser.readProgram ∧
    MovesForward 0 program Parser.program ∧
    (∀ token, MovesForward 1 (fun _ => expect token) (·.read (Grammar.expect token))) ∧
    MovesForward 1 (fun _ => expectName) (·.read Grammar.expectName) ∧
    ∀ state after error,
      (∀ token, expect token state = some (.error error, after) → after = state) ∧
      (expectName state = some (.error error, after) → after = state) := by
  refine ⟨movesForward_expression, movesForward_signed, movesForward_literal,
    movesForward_assignment, movesForward_readProgram, movesForward_program,
    movesForward_expect, movesForward_expectName, ?_⟩
  intro state after error
  exact ⟨fun token => (takesOne_expect token).eq_of_error, takesOne_expectName.eq_of_error⟩

/-- A statement and the front of another one. -/
def cutShort : BufferedParser := ofParser (.start (.ofText .strict "x = -(2 * y); z"))

/-- The statement at the front of `cutShort`. -/
def negatedProduct : Assignment :=
  ⟨"x", ⟨0, 1⟩,
    .unary .minus (.nested
      (.binary .star (.integer 2 ⟨6, 7⟩) (.identifier "y" ⟨10, 11⟩) ⟨6, 11⟩) ⟨5, 12⟩) ⟨4, 12⟩,
    ⟨0, 13⟩⟩

/-- The tokens of `cutShort`, with the first one taken out of its place. -/
def nameTaken : BufferedParser := cutShort.take.2

theorem routines_move_forward_cutShort :
    (∃ after, assignment 36 cutShort = some (.ok negatedProduct, after) ∧
      after.remaining <:+ cutShort.remaining ∧
      after.remaining.length + 4 ≤ cutShort.remaining.length ∧
      cutShort.parser.read Grammar.assignment = (.ok negatedProduct, after.parser)) ∧
    (∃ after, program 36 nameTaken = some (.error .unexpectedEnd, after) ∧
      after.remaining <:+ nameTaken.remaining) ∧
    expect .equals nameTaken = some (.error .unexpectedEnd, nameTaken) ∧
    expectName nameTaken = some (.error .unexpectedEnd, nameTaken) := by
  rcases routines_move_forward with ⟨_, _, _, statements, _, programs, _, _, restored⟩
  refine ⟨?_, ?_, ?_, ?_⟩
  · rcases statements cutShort with ⟨result, after, progress⟩
    have run := progress.ends 36 (by decide +kernel)
    have given : (assignment 36 cutShort).map (·.1) = some (.ok negatedProduct) := by
      decide +kernel
    rw [run] at given
    cases given
    exact ⟨after, run, progress.suffix, progress.takes _ rfl,
      (progress.agrees (filled_ofParser _)).2⟩
  · rcases programs nameTaken with ⟨result, after, progress⟩
    have run := progress.ends 36 (by decide +kernel)
    have given : (program 36 nameTaken).map (·.1) = some (.error .unexpectedEnd) := by
      decide +kernel
    rw [run] at given
    cases given
    exact ⟨after, run, progress.suffix⟩
  · have missed : ∃ after, expect .equals nameTaken = some (.error .unexpectedEnd, after) :=
      ⟨_, rfl⟩
    rcases missed with ⟨after, run⟩
    cases (restored _ _ _).1 _ run
    exact run
  · have missed : ∃ after, expectName nameTaken = some (.error .unexpectedEnd, after) := ⟨_, rfl⟩
    rcases missed with ⟨after, run⟩
    cases (restored _ _ _).2 run
    exact run

end BufferedParser

end Abacus
