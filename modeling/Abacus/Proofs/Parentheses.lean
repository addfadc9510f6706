import Abacus.Proofs.Nodes
import Abacus.Proofs.Places

/-! # Parentheses around nodes

A node of a tree that was read can be put in parentheses in the text, right where its span
starts and ends. A part of a derivation can be exchanged for any other of the same layer, and
the tokens on both sides of it are lexed as before. So the text is read as the same program,
up to the parentheses and to places, and it runs in the same way. -/

namespace Abacus

open Grammar

/-! ## Programs up to parentheses and places -/

theorem Expression.unnested_relocated (relocation : Relocation) (tree : Expression) :
    (relocation.expression tree).unnested = relocation.expression tree.unnested := by
  induction tree with
  | identifier name span => rfl
  | integer value span => rfl
  | unary operator operand span induction =>
      simp only [Relocation.expression, unnested, induction]
  | binary operator left right span leftInduction rightInduction =>
      simp only [Relocation.expression, unnested, leftInduction, rightInduction]
  | nested inner span induction => exact induction

theorem Expression.eval_unnested (store : Store) (tree : Expression) :
    tree.unnested.eval store = tree.eval store := by
  induction tree with
  | identifier name span => rfl
  | integer value span => rfl
  | unary operator operand span induction => simp only [unnested, eval, induction]
  | binary operator left right span leftInduction rightInduction =>
      simp only [unnested, eval, leftInduction, rightInduction]
  | nested inner span induction => exact induction

theorem evalStatements_unnested (store : Store) (statements : List Assignment) :
    evalStatements store (statements.map Assignment.unnested) =
      evalStatements store statements := by
  induction statements generalizing store with
  | nil => rfl
  | cons assignment rest induction =>
      have same : assignment.unnested.eval store = assignment.eval store := by
        simp only [Assignment.eval, Assignment.unnested, Expression.eval_unnested]
      simp only [List.map_cons, evalStatements, same, induction]

namespace Program

theorem bare_eq_unnested (program : Program) :
    program.bare = (Relocation.erase.program program).unnested := by
  simp only [bare, unnested, Relocation.program, List.map_map]
  congr 1
  apply List.map_congr_left
  intro assignment _
  simp only [Function.comp_apply, Relocation.assignment, Assignment.unnested,
    Expression.unnested_relocated]

theorem eval_bare (program : Program) (store : Store) :
    program.bare.eval store =
      ((program.eval store).1.mapError Relocation.erase.evalError, (program.eval store).2) := by
  rw [bare, eval_erased, eval, unnested, evalStatements_unnested]
  rfl

end Program

/-- Up to places, the run of a text depends on the bare program only. -/
theorem Run.result_erased_of_parseText {mode : Mode} {text : String} {program : Program}
    (parsed : parseText mode text = .ok program) (store : Store) (source : Source) :
    (ofText mode text store).result.mapError (Relocation.erase.failure source) =
      match program.bare.eval store with
      | (.error error, _) => .error (.evaluation source error)
      | (.ok (), after) => .ok after := by
  rcases exists_derivation_of_parse (TokenStream.closed_ofItems _) parsed with
    ⟨derivation, stop, equal, rfl⟩
  have lexemes : (TokenStream.ofText mode text).lexemes = _ := equal
  rw [ofText, ofStream, lexemes, execute_of_readTo _ (readTo_programLexemes derivation _),
    Program.eval_bare, Program.eval, Derivation.programTree, Program.statements_ofStatements]
  cases evalStatements store (derivation.map Derivation.Statement.tree) with
  | mk outcome after =>
      cases outcome with
      | error error => rfl
      | ok done =>
          have finished : execute ⟨"<input>", text⟩ after [⟨.eof, stop⟩] = .ok after :=
            execute_of_not_hasStatement _ rfl after
          simp only [finished]
          rfl

/-! ## Parts in parentheses -/

namespace Derivation

/-- The derivation in parentheses, which stand at no place in particular. -/
def enclosed : {layer : Layer} → Derivation layer → Derivation layer
  | .sum, part => term (factor (parentheses (.point 0) part (.point 0)))
  | .product, part => factor (parentheses (.point 0) (term part) (.point 0))
  | .factor, part => parentheses (.point 0) (term (factor part)) (.point 0)

theorem lexemes_enclosed (derivation : Derivation layer) :
    derivation.enclosed.lexemes =
      ⟨.leftParen, .point 0⟩ :: (derivation.lexemes ++ [⟨.rightParen, .point 0⟩]) := by
  cases layer <;> rfl

theorem bare_enclosed (derivation : Derivation layer) :
    derivation.enclosed.tree.bare = derivation.tree.bare := by
  cases layer <;> rfl

/-- A node of a program can be put in parentheses: the tokens before and behind it stay, and so
does the program up to parentheses and places. -/
theorem exists_program_enclosed {derivation : List Statement} {statement : Statement}
    (member : statement ∈ derivation) {node : Expression}
    (nodeMember : node ∈ statement.value.tree.nodes) :
    ∃ (layer : Layer) (part : Derivation layer) (before behind : List Lexeme)
      (other : List Statement),
      part.tree = node ∧
      programLexemes derivation = before ++ (part.lexemes ++ behind) ∧
      programLexemes other = before ++ (part.enclosed.lexemes ++ behind) ∧
      (programTree other).bare = (programTree derivation).bare := by
  rcases List.append_of_mem member with ⟨earlier, later, rfl⟩
  rcases statement with ⟨name, nameSpan, equals, value, semicolon⟩
  rcases value.contains_of_mem_nodes nodeMember with ⟨layer, part, context, tree, rfl⟩
  have around : ∀ filling : Derivation layer,
      programLexemes (earlier ++ ⟨name, nameSpan, equals, context.fill filling, semicolon⟩ ::
          later) =
        (programLexemes earlier ++
          ⟨.ident name, nameSpan⟩ :: ⟨.equals, equals⟩ :: context.before) ++
        (filling.lexemes ++
          (context.behind ++ ⟨.semicolon, semicolon⟩ :: programLexemes later)) := by
    intro filling
    simp [programLexemes, Statement.lexemes, context.lexemes_fill]
  refine ⟨layer, part, _, _, _, tree, around part, around part.enclosed, ?_⟩
  have same := context.bare_fill part.bare_enclosed
  simp only [Program.bare_eq, programTree, Program.statements_ofStatements, List.map_append,
    List.map_cons, Statement.tree, Assignment.bare_mk, same]

end Derivation

/-! ## Tokens and what is passed over between them -/

/-- The texts of tokens in a row, with characters between them that the mode passes over. -/
inductive Written (mode : Mode) : List Token → List Char → Prop
  | nil : Written mode [] []
  | gap (skips : mode.skips char = true) (rest : Written mode tokens chars) :
      Written mode tokens (char :: chars)
  | token (spelled : token.isSpelled = true)
      (ends : ∀ char ∈ chars.head?, token.endsBefore char = true)
      (rest : Written mode tokens chars) :
      Written mode (token :: tokens) (token.text.toList ++ chars)

namespace Written

variable {mode : Mode} {first second : List Token} {front back gap : List Char}

theorem behind_gap (written : Written mode first front)
    (skips : ∀ char ∈ gap, mode.skips char = true) : Written mode first (gap ++ front) := by
  induction gap with
  | nil => exact written
  | cons char gap induction =>
      exact .gap (skips char List.mem_cons_self)
        (induction fun other member => skips other (List.mem_cons_of_mem _ member))

theorem append (written : Written mode first front) (behind : Written mode second back)
    (delimited : Expression.Delimited back) : Written mode (first ++ second) (front ++ back) := by
  induction written with
  | nil => exact behind
  | gap skips rest induction => exact .gap skips induction
  | token spelled ends rest induction =>
      rename_i tokens chars token
      rw [List.append_assoc]
      refine .token spelled ?_ induction
      cases chars with
      | nil => exact Expression.endsBefore_of_delimited delimited
      | cons char chars => exact ends

theorem append_gap (written : Written mode first front)
    (skips : ∀ char ∈ gap, mode.skips char = true) : Written mode first (front ++ gap) := by
  have passed : Written mode [] gap := by
    rw [← List.append_nil gap]
    exact Written.nil.behind_gap skips
  rw [← List.append_nil first]
  apply written.append passed
  intro char member
  exact Mode.not_isNamePart_of_skips (skips char (List.mem_of_mem_head? member))

/-- Nothing that is written before or behind a parenthesis goes on into it. -/
theorem enclosed {before taken behind : List Token} {front piece back : List Char}
    (writtenBefore : Written mode before front) (written : Written mode taken piece)
    (writtenBehind : Written mode behind back) :
    Written mode (before ++ .leftParen :: (taken ++ .rightParen :: behind))
      (front ++ '(' :: (piece ++ ')' :: back)) := by
  have closing : Written mode (.rightParen :: behind) (')' :: back) :=
    .token rfl (fun _ _ => rfl) writtenBehind
  have inner := written.append closing (Expression.delimited_cons rfl back)
  have opening : Written mode (.leftParen :: (taken ++ .rightParen :: behind))
      ('(' :: (piece ++ ')' :: back)) := .token rfl (fun _ _ => rfl) inner
  exact writtenBefore.append opening (Expression.delimited_cons rfl _)

end Written

namespace Layout

variable {mode : Mode} {offset stop : Nat} {chars : List Char}

theorem skip {char : Char} (skips : mode.skips char = true) {items : List Item}
    (layout : Layout mode (offset + char.utf8Size) stop chars items) :
    Layout mode offset stop (char :: chars) items := by
  have longer : ∀ {gap : List Char}, (∀ other ∈ gap, mode.skips other = true) →
      ∀ other ∈ char :: gap, mode.skips other = true := by
    intro gap passed other member
    rcases List.mem_cons.mp member with rfl | member
    · exact skips
    · exact passed other member
  cases layout with
  | ended passed => exact .ended (longer passed)
  | item passed entry further =>
      rw [Nat.add_assoc offset, ← byteSize_cons] at entry further
      exact .item (longer passed) entry further

/-- What is written has a layout of its tokens from every offset on. -/
theorem of_written {tokens : List Token} (written : Written mode tokens chars)
    (offset stop : Nat) :
    ∃ lexemes : List Lexeme, lexemes.map (·.token) = tokens ∧
      Layout mode offset stop chars (lexemes.map .read ++ [.ofToken .eof stop stop]) := by
  induction written generalizing offset with
  | nil => exact ⟨[], rfl, .ended (by simp)⟩
  | gap skips rest induction =>
      rename_i char tokens chars
      rcases induction (offset + char.utf8Size) with ⟨lexemes, same, layout⟩
      exact ⟨lexemes, same, layout.skip skips⟩
  | token spelled ends rest induction =>
      rename_i tokens chars token
      rcases induction (offset + byteSize token.text.toList) with ⟨lexemes, rfl, further⟩
      have layout : Layout mode offset stop ([] ++ (token.text.toList ++ chars))
          (.ofToken token offset (offset + token.text.utf8ByteSize) ::
            (lexemes.map .read ++ [.ofToken .eof stop stop])) :=
        .item (by simp) (.token spelled ends) further
      exact ⟨⟨token, ⟨offset, offset + token.text.utf8ByteSize⟩⟩ :: lexemes, rfl, layout⟩

theorem written {lexemes : List Lexeme} {final : Item}
    (layout : Layout mode offset stop chars (lexemes.map .read ++ [final])) :
    Written mode (lexemes.map (·.token)) chars := by
  induction lexemes generalizing offset stop chars with
  | nil =>
      rcases layout.of_cons with ⟨_, _, skips⟩ | ⟨_, _, _, _, _, _, _, nothing⟩
      · rw [← List.append_nil chars]
        exact Written.nil.behind_gap skips
      · cases nothing
  | cons lexeme lexemes induction =>
      rcases layout.of_cons with ⟨empty, _⟩ | ⟨gap, word, rest, behind, rfl, skips, entry, further⟩
      · simp at empty
      · rcases entry.of_read with ⟨rfl, _, spelled, ends⟩
        exact (Written.token spelled ends (induction further)).behind_gap skips

end Layout

theorem tokens_of_written {mode : Mode} {tokens : List Token} {text : String}
    (written : Written mode tokens text.toList) :
    (TokenStream.ofText mode text).tokens = tokens ++ [.eof] := by
  rcases Layout.of_written written 0 (Cursor.ofText text).stop with ⟨lexemes, rfl, layout⟩
  have items := layout.drain_eq (EndsAt.ofText text)
  rw [← Cursor.ofText_eq_cellsFrom] at items
  have lexed : lex mode text = _ := items
  rw [TokenStream.tokens, TokenStream.lexemes_ofText, lexed]
  simp [Function.comp_def, Item.lexeme, Item.ofToken]

/-- The characters before a row of tokens, those from the first of them to the last, and those
behind are written apart from each other. -/
theorem exists_written_of_frames {mode : Mode} {text : String} {before taken behind : List Lexeme}
    {final : Item}
    (items : lex mode text =
      before.map .read ++ (taken.map .read ++ (behind.map .read ++ [final])))
    {span : Span} (frames : Frames span taken) :
    ∃ front piece back, text.toList = front ++ (piece ++ back) ∧
      span = ⟨byteSize front, byteSize (front ++ piece)⟩ ∧
      Written mode (before.map (·.token)) front ∧ Written mode (taken.map (·.token)) piece ∧
      Written mode (behind.map (·.token)) back := by
  rcases frames with ⟨first, last, isFirst, isLast, rfl⟩
  rcases List.head?_eq_some_iff.mp isFirst with ⟨more, rfl⟩
  have layout := Layout.of_text mode text
  rw [items] at layout
  rcases layout.take (by simp) with ⟨front, rest, whole, _, layoutBefore, _, further⟩
  rw [Nat.zero_add] at further
  -- What is passed over before the first token goes to the front, so that the piece starts
  -- where the span does.
  rcases further.trim (by simp) with ⟨gap, shown, rfl, skips, start, _, trimmed⟩
  rw [← byteSize_append] at start trimmed
  have tokens : Layout mode (byteSize (front ++ gap)) _ shown
    ((first :: more).map .read ++ (behind.map .read ++ [final])) := trimmed
  rcases tokens.take (by simp) with ⟨piece, back, rfl, reached, layoutPiece, _, layoutBehind⟩
  rw [isLast, ← byteSize_append] at reached
  refine ⟨front ++ gap, piece, back, ?_, ?_, (layoutBefore 0).written.append_gap skips,
    (layoutPiece 0).written, layoutBehind.written⟩
  · rw [whole, List.append_assoc]
  · rw [← reached, ← start]
    rfl

/-! ## Texts -/

theorem exists_parse_of_written {mode : Mode} {text : String}
    {derivation : List Derivation.Statement}
    (written : Written mode ((Derivation.programLexemes derivation).map (·.token)) text.toList) :
    ∃ program, parseText mode text = .ok program ∧
      program.bare = (Derivation.programTree derivation).bare := by
  let derived : TokenStream := ⟨Derivation.programLexemes derivation ++ [⟨.eof, .point 0⟩], []⟩
  have tokens : (TokenStream.ofText mode text).tokens = derived.tokens := by
    rw [tokens_of_written written, TokenStream.tokens, List.map_append]
    rfl
  rcases exists_parse_of_tokens_eq tokens (parse_of_derivation rfl) with ⟨program, parsed, erased⟩
  refine ⟨program, parsed, ?_⟩
  rw [Program.bare_eq_unnested, erased, ← Program.bare_eq_unnested]

/-- Parentheses around a node of a program, put in the text where its span starts and where it
ends, leave the program as it is up to parentheses and places. It runs to the same store or fails
for the same cause. -/
theorem parentheses_around_nodes (mode : Mode) (text : String) (program : Program)
    (parsed : parseText mode text = .ok program) :
    ∀ statement ∈ program.statements, ∀ node ∈ statement.value.nodes,
      ∃ before piece behind, text = before ++ piece ++ behind ∧
        node.span = ⟨before.utf8ByteSize, (before ++ piece).utf8ByteSize⟩ ∧
        ∃ enclosed, parseText mode (before ++ "(" ++ piece ++ ")" ++ behind) = .ok enclosed ∧
          enclosed.bare = program.bare ∧
          ∀ store source,
            (Run.ofText mode (before ++ "(" ++ piece ++ ")" ++ behind) store).result.mapError
                (Relocation.erase.failure source) =
              (Run.ofText mode text store).result.mapError (Relocation.erase.failure source) := by
  intro tree member node nodeMember
  rcases lex_of_parseText parsed with ⟨derivation, stop, rfl, items⟩
  rw [Derivation.programTree, Program.statements_ofStatements] at member
  rcases List.mem_map.mp member with ⟨statement, found, rfl⟩
  rcases Derivation.exists_program_enclosed found nodeMember with
    ⟨layer, part, earlier, later, other, rfl, lexemes, otherLexemes, bare⟩
  have split : lex mode text = earlier.map .read ++
      (part.lexemes.map .read ++ (later.map .read ++ [.read ⟨.eof, stop⟩])) := by
    rw [items, lexemes]
    simp
  rcases exists_written_of_frames split part.frames_tree with
    ⟨before, piece, behind, whole, place, writtenBefore, written, writtenBehind⟩
  refine ⟨String.ofList before, String.ofList piece, String.ofList behind, ?_, ?_, ?_⟩
  · rw [← String.toList_inj, whole]
    simp
  · rw [place, ← String.ofList_append]
    rfl
  have writtenAround : Written mode ((Derivation.programLexemes other).map (·.token))
      (String.ofList before ++ "(" ++ String.ofList piece ++ ")" ++
        String.ofList behind).toList := by
    rw [otherLexemes, Derivation.lexemes_enclosed]
    simpa using writtenBefore.enclosed written writtenBehind
  rcases exists_parse_of_written writtenAround with ⟨enclosed, read, same⟩
  rw [bare] at same
  refine ⟨enclosed, read, same, fun store source => ?_⟩
  rw [Run.result_erased_of_parseText read, Run.result_erased_of_parseText parsed, same]

/-- The program `xé = - -9223372036854775808;`. -/
def negatedLeast : Program :=
  ⟨[⟨"x", ⟨0, 1⟩, .unary .minus (.integer Int64.minValue ⟨8, 28⟩) ⟨6, 28⟩, ⟨0, 29⟩⟩], ⟨0, 29⟩⟩

/-- The parentheses stand before the minus of the least integer, not behind it. -/
theorem parentheses_around_nodes_negatedLeast :
    parseText .permissive "xé = - -9223372036854775808;" = .ok negatedLeast ∧
    (Run.ofText .permissive "xé = - -9223372036854775808;" .empty).result =
      .error (.evaluation ⟨"<input>", "xé = - -9223372036854775808;"⟩ ⟨.overflow, ⟨6, 28⟩⟩) ∧
    ∃ before piece behind, "xé = - -9223372036854775808;" = before ++ piece ++ behind ∧
      Span.mk 8 28 = ⟨before.utf8ByteSize, (before ++ piece).utf8ByteSize⟩ ∧
      ∃ enclosed,
        parseText .permissive (before ++ "(" ++ piece ++ ")" ++ behind) = .ok enclosed ∧
        enclosed.bare = negatedLeast.bare ∧
        ∀ store source,
          (Run.ofText .permissive (before ++ "(" ++ piece ++ ")" ++ behind)
              store).result.mapError (Relocation.erase.failure source) =
            (Run.ofText .permissive "xé = - -9223372036854775808;" store).result.mapError
              (Relocation.erase.failure source) := by
  have parsed : parseText .permissive "xé = - -9223372036854775808;" = .ok negatedLeast := by
    decide +kernel
  refine ⟨parsed, by decide +kernel, ?_⟩
  exact parentheses_around_nodes .permissive _ _ parsed _ List.mem_cons_self
    (.integer Int64.minValue ⟨8, 28⟩) (by decide)

end Abacus
