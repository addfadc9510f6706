import Abacus.Proofs.Concatenation
import Abacus.Proofs.Excerpts
import Abacus.Proofs.RoundTrip

/-! # The places of nodes

Every node of a tree that was read covers a piece of the text, from its first token to its
last. That piece alone is read as the same node, and so is every statement. -/

namespace Abacus

open Grammar

/-! ## Nodes and their tokens -/

namespace Expression

/-- All nodes of a tree, the tree itself first. -/
def nodes : Expression → List Expression
  | identifier name span => [identifier name span]
  | integer value span => [integer value span]
  | unary operator operand span => unary operator operand span :: operand.nodes
  | binary operator left right span =>
      binary operator left right span :: (left.nodes ++ right.nodes)
  | nested inner span => nested inner span :: inner.nodes

end Expression

namespace Derivation

/-- A derivation of any layer as one of the loosest. -/
def loosened : {layer : Layer} → Derivation layer → Derivation .sum
  | .sum, derivation => derivation
  | .product, derivation => term derivation
  | .factor, derivation => term (factor derivation)

@[simp] theorem lexemes_loosened (derivation : Derivation layer) :
    derivation.loosened.lexemes = derivation.lexemes := by
  cases layer <;> rfl

@[simp] theorem tree_loosened (derivation : Derivation layer) :
    derivation.loosened.tree = derivation.tree := by
  cases layer <;> rfl

end Derivation

/-- A span reaches from the first of some tokens to the last. -/
def Frames (span : Span) (lexemes : List Lexeme) : Prop :=
  ∃ first last, lexemes.head? = some first ∧ lexemes.getLast? = some last ∧
    span = spanning first.span last.span

namespace Frames

theorem single (lexeme : Lexeme) : Frames lexeme.span [lexeme] := ⟨lexeme, lexeme, rfl, rfl, rfl⟩

theorem cons {span : Span} {lexemes : List Lexeme} (frames : Frames span lexemes)
    (first : Lexeme) : Frames (spanning first.span span) (first :: lexemes) := by
  rcases frames with ⟨_, last, _, isLast, rfl⟩
  refine ⟨first, last, rfl, ?_, rfl⟩
  rw [List.getLast?_cons, isLast]
  rfl

theorem append {leftSpan rightSpan : Span} {left right : List Lexeme}
    (leftFrames : Frames leftSpan left) (rightFrames : Frames rightSpan right) :
    Frames (spanning leftSpan rightSpan) (left ++ right) := by
  rcases leftFrames with ⟨first, _, isFirst, _, rfl⟩
  rcases rightFrames with ⟨_, last, _, isLast, rfl⟩
  refine ⟨first, last, ?_, ?_, rfl⟩
  · rw [List.head?_append, isFirst]
    rfl
  · rw [List.getLast?_append, isLast]
    rfl

end Frames

namespace Derivation

/-- A tree is derived from its first token to its last. -/
theorem frames_tree (derivation : Derivation layer) :
    Frames derivation.tree.span derivation.lexemes := by
  induction derivation with
  | term only induction => exact induction
  | sum left operator additive right leftInduction rightInduction =>
      have frames := leftInduction.append (rightInduction.cons operator)
      exact frames
  | factor only induction => exact induction
  | product left star right leftInduction rightInduction =>
      have frames := leftInduction.append (rightInduction.cons ⟨.star, star⟩)
      exact frames
  | parentheses opening inner closing induction =>
      exact (induction.append (.single ⟨.rightParen, closing⟩)).cons ⟨.leftParen, opening⟩
  | signed sign isSign operand induction => exact induction.cons sign
  | literal digits span value reads => exact .single ⟨.int digits, span⟩
  | least minus digits span reads =>
      exact (Frames.single ⟨.int digits, span⟩).cons ⟨.minus, minus⟩
  | identifier name span => exact .single ⟨.ident name, span⟩

theorem Statement.frames_tree (statement : Statement) :
    Frames statement.tree.span statement.lexemes :=
  ((statement.value.frames_tree.append (.single ⟨.semicolon, statement.semicolon⟩)).cons
    ⟨.equals, statement.equals⟩).cons ⟨.ident statement.name, statement.nameSpan⟩

/-! ### Parts in their surroundings -/

/-- What surrounds a part of a derivation: the tokens before and behind the part, and the whole
that another part of the same layer makes in its place. -/
structure Context (inner outer : Layer) where
  before : List Lexeme
  behind : List Lexeme
  fill : Derivation inner → Derivation outer
  lexemes_fill : ∀ part, (fill part).lexemes = before ++ (part.lexemes ++ behind)
  bare_fill : ∀ {first second}, first.tree.bare = second.tree.bare →
    (fill first).tree.bare = (fill second).tree.bare

variable {inner middle outer : Layer}

namespace Context

def hole : Context layer layer where
  before := []
  behind := []
  fill part := part
  lexemes_fill part := (List.append_nil part.lexemes).symm
  bare_fill same := same

/-- The surroundings of a part of a part. -/
def within (outside : Context middle outer) (inside : Context inner middle) :
    Context inner outer where
  before := outside.before ++ inside.before
  behind := inside.behind ++ outside.behind
  fill part := outside.fill (inside.fill part)
  lexemes_fill part := by
    rw [outside.lexemes_fill, inside.lexemes_fill, List.append_assoc, List.append_assoc,
      List.append_assoc]
  bare_fill same := outside.bare_fill (inside.bare_fill same)

end Context

/-- Some part of the derivation stands for the node. -/
def Contains (derivation : Derivation outer) (node : Expression) : Prop :=
  ∃ (inner : Layer) (part : Derivation inner) (context : Context inner outer),
    part.tree = node ∧ context.fill part = derivation

theorem contains_tree (derivation : Derivation layer) : derivation.Contains derivation.tree :=
  ⟨layer, derivation, .hole, rfl, rfl⟩

theorem Contains.fill {derivation : Derivation middle} {node : Expression}
    (contains : derivation.Contains node) (outside : Context middle outer) :
    (outside.fill derivation).Contains node := by
  rcases contains with ⟨inner, part, inside, tree, rfl⟩
  exact ⟨inner, part, outside.within inside, tree, rfl⟩

theorem contains_of_mem_nodes (derivation : Derivation layer) {node : Expression}
    (member : node ∈ derivation.tree.nodes) : derivation.Contains node := by
  induction derivation with
  | term only induction =>
      exact (induction member).fill ⟨[], [], .term, fun _ => (List.append_nil _).symm, id⟩
  | sum left operator additive right leftInduction rightInduction =>
      rcases List.mem_cons.mp member with rfl | member
      · exact contains_tree _
      · rcases List.mem_append.mp member with member | member
        · exact (leftInduction member).fill ⟨[], operator :: right.lexemes,
            fun part => .sum part operator additive right, fun _ => rfl,
            fun same => by simp only [tree, Expression.bare_binary, same]⟩
        · exact (rightInduction member).fill ⟨left.lexemes ++ [operator], [],
            .sum left operator additive, fun _ => by simp [lexemes],
            fun same => by simp only [tree, Expression.bare_binary, same]⟩
  | factor only induction =>
      exact (induction member).fill ⟨[], [], .factor, fun _ => (List.append_nil _).symm, id⟩
  | product left star right leftInduction rightInduction =>
      rcases List.mem_cons.mp member with rfl | member
      · exact contains_tree _
      · rcases List.mem_append.mp member with member | member
        · exact (leftInduction member).fill ⟨[], ⟨.star, star⟩ :: right.lexemes,
            fun part => .product part star right, fun _ => rfl,
            fun same => by simp only [tree, Expression.bare_binary, same]⟩
        · exact (rightInduction member).fill ⟨left.lexemes ++ [⟨.star, star⟩], [],
            .product left star, fun _ => by simp [lexemes],
            fun same => by simp only [tree, Expression.bare_binary, same]⟩
  | parentheses opening inner closing induction =>
      rcases List.mem_cons.mp member with rfl | member
      · exact contains_tree _
      · exact (induction member).fill ⟨[⟨.leftParen, opening⟩], [⟨.rightParen, closing⟩],
          fun part => .parentheses opening part closing, fun _ => rfl, id⟩
  | signed sign isSign operand induction =>
      rcases List.mem_cons.mp member with rfl | member
      · exact contains_tree _
      · exact (induction member).fill ⟨[sign], [], .signed sign isSign,
          fun _ => by simp [lexemes],
          fun same => by simp only [tree, Expression.bare_unary, same]⟩
  | literal digits span value reads =>
      rw [List.mem_singleton.mp member]
      exact contains_tree _
  | least minus digits span reads =>
      rw [List.mem_singleton.mp member]
      exact contains_tree _
  | identifier name span =>
      rw [List.mem_singleton.mp member]
      exact contains_tree _

/-- Some tokens in a row are derived as the tree. -/
def Holds (lexemes : List Lexeme) (tree : Expression) : Prop :=
  ∃ (part : Derivation .sum) (before behind : List Lexeme),
    lexemes = before ++ (part.lexemes ++ behind) ∧ part.tree = tree

theorem Holds.before {lexemes : List Lexeme} {tree : Expression} (holds : Holds lexemes tree)
    (behind : List Lexeme) : Holds (lexemes ++ behind) tree := by
  rcases holds with ⟨part, earlier, later, rfl, equal⟩
  exact ⟨part, earlier, later ++ behind, by simp, equal⟩

theorem Holds.behind {lexemes : List Lexeme} {tree : Expression} (holds : Holds lexemes tree)
    (before : List Lexeme) : Holds (before ++ lexemes) tree := by
  rcases holds with ⟨part, earlier, later, rfl, equal⟩
  exact ⟨part, before ++ earlier, later, by simp, equal⟩

theorem holds_of_mem_nodes (derivation : Derivation layer) {node : Expression}
    (member : node ∈ derivation.tree.nodes) : Holds derivation.lexemes node := by
  rcases derivation.contains_of_mem_nodes member with ⟨inner, part, context, tree, rfl⟩
  refine ⟨part.loosened, context.before, context.behind, ?_, ?_⟩
  · rw [context.lexemes_fill, lexemes_loosened]
  · rw [tree_loosened, tree]

end Derivation

/-! ## Pieces of a text -/

namespace Layout

variable {mode : Mode} {offset stop : Nat} {chars : List Char}

/-- The first item can be laid out without the gap before it. -/
theorem trim {item : Item} {items : List Item}
    (layout : Layout mode offset stop chars (item :: items)) (inhabited : items ≠ []) :
    ∃ gap rest, chars = gap ++ rest ∧ (∀ char ∈ gap, mode.skips char = true) ∧
      item.span.start = offset + byteSize gap ∧ rest ≠ [] ∧
      Layout mode (offset + byteSize gap) stop rest (item :: items) := by
  rcases layout.of_cons with ⟨empty, _⟩ | ⟨gap, word, rest, behind, rfl, skips, entry, further⟩
  · exact absurd empty inhabited
  · have trimmed : Layout mode (offset + byteSize gap) stop ([] ++ (word ++ rest))
        (item :: items) := .item (by simp) entry further
    exact ⟨gap, word ++ rest, rfl, skips, entry.start_span, by simp [entry.word_ne_nil], trimmed⟩

theorem ne_nil {item : Item} {items : List Item}
    (layout : Layout mode offset stop chars (item :: items)) (inhabited : items ≠ []) :
    chars ≠ [] := by
  rcases layout.trim inhabited with ⟨gap, rest, rfl, _, _, restInhabited, _⟩
  simp [restInhabited]

/-- Some tokens at the front are laid out alone in the characters up to the last of them,
wherever these end, and the other items are laid out behind these characters. -/
theorem take {taken : List Lexeme} {later : List Item}
    (layout : Layout mode offset stop chars (taken.map .read ++ later)) (inhabited : later ≠ []) :
    ∃ front rest, chars = front ++ rest ∧
      (taken.getLast?.map (·.span.stop)).getD offset = offset + byteSize front ∧
      (∀ final, Layout mode offset final front
        (taken.map .read ++ [.ofToken .eof final final])) ∧
      ∃ behind, Layout mode (offset + byteSize front) behind rest later := by
  induction taken generalizing offset stop chars with
  | nil => exact ⟨[], chars, rfl, rfl, fun final => .ended (by simp), stop, layout⟩
  | cons lexeme taken induction =>
      rcases layout.of_cons with ⟨empty, _⟩ | ⟨gap, word, rest, behind, rfl, skips, entry, further⟩
      · exact absurd (List.append_eq_nil_iff.mp empty).2 inhabited
      · rcases induction further with
          ⟨front, back, rfl, reached, layoutFront, stopBehind, layoutBehind⟩
        have heads : ∀ char ∈ front.head?, char ∈ (front ++ back).head? := by
          intro char member
          rw [List.head?_append, member]
          rfl
        rw [Nat.add_assoc, Nat.add_assoc, ← byteSize_append, ← byteSize_append] at layoutBehind
        refine ⟨gap ++ (word ++ front), back, by simp, ?_, fun final =>
          .item skips (entry.read_congr heads final) (layoutFront final), stopBehind, layoutBehind⟩
        have place := congrArg Span.stop entry.of_read.2.1
        rw [List.getLast?_cons]
        cases last : taken.getLast? with
        | none =>
            rw [last] at reached
            simp only [Option.map_none, Option.getD_none, Option.map_some, Option.getD_some,
              byteSize_append] at reached place ⊢
            omega
        | some lexeme =>
            rw [last] at reached
            simp only [Option.map_some, Option.getD_some, byteSize_append] at reached ⊢
            omega

/-- Lexing characters alone gives their items, moved back to the front. -/
theorem lex_eq {text : String} {items : List Item}
    (layout : Layout mode offset ((Cursor.ofText text).stop + offset) text.toList items) :
    (lex mode text).map (Relocation.shift offset).item = items := by
  have cursor : (Cursor.ofText text).shifted offset =
      ⟨Cursor.cellsFrom offset text.toList, (Cursor.ofText text).stop + offset⟩ := by
    have moved := Cursor.cellsFrom_add 0 offset text.toList
    rw [Nat.zero_add] at moved
    rw [Cursor.ofText_eq_cellsFrom, Cursor.shifted, moved]
  have endsAt : EndsAt ((Cursor.ofText text).stop + offset) offset text.toList := by
    intro front last equal
    rw [EndsAt.ofText text front last equal]
    omega
  rw [lex, ← Cursor.drain_shifted, cursor]
  exact layout.drain_eq endsAt

end Layout

/-- The characters from one token of a text to another are laid out alone as the tokens
between them. -/
theorem exists_layout_of_frames {mode : Mode} {text : String} {earlier later : List Item}
    {taken : List Lexeme} (items : lex mode text = earlier ++ (taken.map .read ++ later))
    (inhabited : later ≠ []) {span : Span} (frames : Frames span taken) :
    ∃ before covered behind, text.toList = before ++ covered ++ behind ∧ covered ≠ [] ∧
      span = ⟨byteSize before, byteSize (before ++ covered)⟩ ∧
      ∀ final, Layout mode (byteSize before) final covered
        (taken.map .read ++ [.ofToken .eof final final]) := by
  rcases frames with ⟨first, last, isFirst, isLast, rfl⟩
  rcases List.head?_eq_some_iff.mp isFirst with ⟨more, rfl⟩
  rcases exists_layout_of_lex items (by simp) with ⟨front, rest, stop, equal, layout, _⟩
  rcases layout.trim (by simp [inhabited]) with ⟨gap, shown, rfl, _, start, _, trimmed⟩
  rw [← byteSize_append] at start trimmed
  have tokens : Layout mode (byteSize (front ++ gap)) stop shown
    ((first :: more).map .read ++ later) := trimmed
  rcases tokens.take inhabited with ⟨covered, back, rfl, reached, alone, _⟩
  rw [isLast, ← byteSize_append] at reached
  refine ⟨front ++ gap, covered, back, ?_, (alone 0).ne_nil (by simp), ?_, alone⟩
  · rw [equal]
    simp
  · rw [← reached, ← start]
    rfl

/-- The piece of a text from one of its tokens to another has the tokens between them, moved
back to its front. -/
theorem exists_excerpt_of_frames {mode : Mode} {text : String} {earlier later : List Item}
    {taken : List Lexeme} (items : lex mode text = earlier ++ (taken.map .read ++ later))
    (inhabited : later ≠ []) {span : Span} (frames : Frames span taken) :
    span.start < span.stop ∧ span.stop ≤ text.utf8ByteSize ∧
    ∃ piece, Excerpt text span piece ∧ ∃ stop,
      (TokenStream.ofText mode piece).lexemes.map (Relocation.shift span.start).lexeme =
        taken ++ [⟨.eof, stop⟩] := by
  rcases exists_layout_of_frames items inhabited frames with
    ⟨before, covered, behind, whole, notEmpty, rfl, alone⟩
  have positive := byteSize_pos notEmpty
  have size := congrArg byteSize whole
  simp only [byteSize_append, byteSize_toList] at size
  refine ⟨by simp only [byteSize_append]; omega, by simp only [byteSize_append]; omega,
    String.ofList covered, excerpt_of_toList whole, ?_⟩
  generalize pieceEqual : String.ofList covered = piece
  have chars : covered = piece.toList := by rw [← pieceEqual, String.toList_ofList]
  subst chars
  have lexed := (alone ((Cursor.ofText piece).stop + byteSize before)).lex_eq
  refine ⟨.point ((Cursor.ofText piece).stop + byteSize before), ?_⟩
  calc (TokenStream.ofText mode piece).lexemes.map (Relocation.shift (byteSize before)).lexeme
    _ = ((lex mode piece).map (Relocation.shift (byteSize before)).item).map Item.lexeme := by
      simp [TokenStream.lexemes_ofText, Function.comp_def]
    _ = taken ++ [⟨.eof, .point ((Cursor.ofText piece).stop + byteSize before)⟩] := by
      rw [lexed, List.map_append, List.map_map]
      simp [Function.comp_def, Item.lexeme, Item.ofToken, Span.point]

/-! ## Reading pieces -/

/-- Tokens that are derived at their places are derived alone. -/
theorem exists_read_of_lexemes {stream : TokenStream} {amount : Nat} {derivation : Derivation .sum}
    {stop : Span}
    (lexemes : stream.lexemes.map (Relocation.shift amount).lexeme =
      derivation.lexemes ++ [⟨.eof, stop⟩]) :
    ∃ alone final, (Parser.start stream).read (expression .sum) =
        (.ok alone, ⟨[⟨.eof, final⟩], false⟩) ∧
      (Relocation.shift amount).expression alone = derivation.tree := by
  have stops : Layer.sum.StopsAt [⟨.eof, stop⟩] := stopsAt_cons ⟨.eof, stop⟩ rfl []
  have read := expression_lexemes derivation stops
  rw [← lexemes, expression_relocated] at read
  simp only [Parser.read, Parser.start]
  cases outcome : expression .sum stream.lexemes with
  | failed error rest =>
      rw [outcome] at read
      rcases read with ⟨_, equal⟩
      contradiction
  | done alone rest shorter =>
      rw [outcome] at read
      rcases read with ⟨_, equal⟩
      simp only [Relocation.outcome, Outcome.done.injEq] at equal
      rcases equal with ⟨moved, left⟩
      rcases List.map_eq_singleton_iff.mp left with ⟨⟨token, final⟩, rfl, isEnd⟩
      cases congrArg Lexeme.token isEnd
      exact ⟨alone, final, rfl, moved⟩

theorem exists_parse_of_lexemes {stream : TokenStream} {amount : Nat}
    {statement : Derivation.Statement} {stop : Span}
    (lexemes : stream.lexemes.map (Relocation.shift amount).lexeme =
      statement.lexemes ++ [⟨.eof, stop⟩]) :
    ∃ alone, parse stream = .ok (.ofStatements [alone]) ∧
      (Relocation.shift amount).assignment alone = statement.tree := by
  have read := statements_relocated (Relocation.shift amount) stream.lexemes
  have single : statement.lexemes = Derivation.programLexemes [statement] := by
    simp [Derivation.programLexemes]
  rw [lexemes, single, statements_programLexemes] at read
  simp only [Prod.mk.injEq] at read
  rcases read with ⟨trees, succeeds, _⟩
  rcases List.map_eq_singleton_iff.mp trees.symm with ⟨alone, found, moved⟩
  refine ⟨alone, ?_, moved⟩
  rw [parse_eq, found]
  cases result : (statements stream.lexemes).2.1 with
  | error error =>
      rw [result] at succeeds
      contradiction
  | ok done => rfl

theorem lex_of_parseText {mode : Mode} {text : String} {program : Program}
    (parsed : parseText mode text = .ok program) :
    ∃ derivation stop, program = Derivation.programTree derivation ∧
      lex mode text =
        (Derivation.programLexemes derivation).map .read ++ [.read ⟨.eof, stop⟩] := by
  rcases exists_derivation_of_parse (TokenStream.closed_ofItems _) parsed with
    ⟨derivation, stop, equal, rfl⟩
  refine ⟨derivation, stop, rfl, ?_⟩
  have lexemes : (lex mode text).map Item.lexeme = _ :=
    (TokenStream.lexemes_ofText mode text).symm.trans equal
  have read : ∀ item ∈ lex mode text, item = .read item.lexeme := by
    intro item member
    have proper : item.lexeme.token ≠ .malformed := by
      have found := List.mem_map_of_mem (f := Item.lexeme) member
      rw [lexemes] at found
      rcases List.mem_append.mp found with found | found
      · exact (Derivation.program_token_ne derivation _ found).2
      · rw [List.mem_singleton.mp found]
        exact Token.noConfusion
    cases item with
    | read lexeme => rfl
    | failed error => exact absurd rfl proper
  calc lex mode text
    _ = (lex mode text).map fun item => .read item.lexeme :=
      (List.map_id _).symm.trans (List.map_congr_left read)
    _ = ((lex mode text).map Item.lexeme).map .read := by rw [List.map_map]; rfl
    _ = _ := by rw [lexemes, List.map_append]; rfl

section Parts

variable {mode : Mode} {text : String} {derivation : List Derivation.Statement} {stop : Span}
  (items : lex mode text =
    (Derivation.programLexemes derivation).map .read ++ [.read ⟨.eof, stop⟩])
include items

theorem exists_excerpt_of_part {before taken behind : List Lexeme}
    (parts : Derivation.programLexemes derivation = before ++ (taken ++ behind))
    {span : Span} (frames : Frames span taken) :
    span.start < span.stop ∧ span.stop ≤ text.utf8ByteSize ∧
    ∃ piece, Excerpt text span piece ∧ ∃ stop,
      (TokenStream.ofText mode piece).lexemes.map (Relocation.shift span.start).lexeme =
        taken ++ [⟨.eof, stop⟩] := by
  have split : lex mode text = before.map .read ++
      (taken.map .read ++ (behind.map .read ++ [.read ⟨.eof, stop⟩])) := by
    rw [items, parts]
    simp
  exact exists_excerpt_of_frames split (by simp) frames

theorem read_excerpt_of_node {node : Expression}
    (holds : Derivation.Holds (Derivation.programLexemes derivation) node) :
    node.span.start < node.span.stop ∧ node.span.stop ≤ text.utf8ByteSize ∧
    ∃ piece, Excerpt text node.span piece ∧
      ∃ alone final, (Parser.start (TokenStream.ofText mode piece)).read (expression .sum) =
          (.ok alone, ⟨[⟨.eof, final⟩], false⟩) ∧
        (Relocation.shift node.span.start).expression alone = node := by
  rcases holds with ⟨part, before, behind, parts, rfl⟩
  rcases exists_excerpt_of_part items parts part.frames_tree with
    ⟨proper, within, piece, excerpt, stop, lexemes⟩
  exact ⟨proper, within, piece, excerpt, exists_read_of_lexemes lexemes⟩

end Parts

/-- Every node of a program, and every statement, covers a piece of the text. The piece alone
is read as the same node, up to the end and moved back to the front of the piece. -/
theorem parse_excerpts (mode : Mode) (text : String) (program : Program)
    (parsed : parseText mode text = .ok program) :
    ∀ statement ∈ program.statements,
      (∀ node ∈ statement.value.nodes,
        node.span.start < node.span.stop ∧ node.span.stop ≤ text.utf8ByteSize ∧
        ∃ piece, Excerpt text node.span piece ∧
          ∃ alone final, (Parser.start (TokenStream.ofText mode piece)).read (expression .sum) =
              (.ok alone, ⟨[⟨.eof, final⟩], false⟩) ∧
            (Relocation.shift node.span.start).expression alone = node) ∧
      statement.span.start < statement.span.stop ∧ statement.span.stop ≤ text.utf8ByteSize ∧
      ∃ piece, Excerpt text statement.span piece ∧
        ∃ alone, parseText mode piece = .ok (.ofStatements [alone]) ∧
          (Relocation.shift statement.span.start).assignment alone = statement := by
  rcases lex_of_parseText parsed with ⟨derivation, stop, rfl, items⟩
  intro tree member
  rw [Derivation.programTree, Program.statements_ofStatements] at member
  rcases List.mem_map.mp member with ⟨statement, found, rfl⟩
  rcases List.append_of_mem found with ⟨earlier, later, rfl⟩
  have parts : Derivation.programLexemes (earlier ++ statement :: later) =
      Derivation.programLexemes earlier ++
        (statement.lexemes ++ Derivation.programLexemes later) := by
    simp [Derivation.programLexemes]
  constructor
  · intro node nodeMember
    have holds := statement.value.holds_of_mem_nodes nodeMember
    apply read_excerpt_of_node items
    rw [parts]
    exact (((holds.before _).behind [_, _]).before _).behind _
  · rcases exists_excerpt_of_part items parts statement.frames_tree with
      ⟨proper, within, piece, excerpt, stop, lexemes⟩
    exact ⟨proper, within, piece, excerpt, exists_parse_of_lexemes lexemes⟩

/-- The program `x = aé- b -c;`, whose right operand is a difference of its own. -/
def chainedDifference : Program :=
  ⟨[⟨"x", ⟨0, 1⟩, .binary .minus (.identifier "a" ⟨4, 5⟩)
    (.binary .minus (.identifier "b" ⟨9, 10⟩) (.identifier "c" ⟨12, 13⟩) ⟨9, 13⟩) ⟨4, 13⟩,
    ⟨0, 14⟩⟩], ⟨0, 14⟩⟩

theorem parse_excerpts_chainedDifference :
    parseText .permissive "x = aé- b -c;" = .ok chainedDifference ∧
    ∃ piece, Excerpt "x = aé- b -c;" ⟨9, 13⟩ piece ∧
      ∃ alone final, (Parser.start (TokenStream.ofText .permissive piece)).read
          (expression .sum) = (.ok alone, ⟨[⟨.eof, final⟩], false⟩) ∧
        (Relocation.shift 9).expression alone =
          .binary .minus (.identifier "b" ⟨9, 10⟩) (.identifier "c" ⟨12, 13⟩) ⟨9, 13⟩ := by
  have parsed : parseText .permissive "x = aé- b -c;" = .ok chainedDifference := by
    decide +kernel
  have statement := parse_excerpts .permissive _ _ parsed _ List.mem_cons_self
  have node := statement.1
    (.binary .minus (.identifier "b" ⟨9, 10⟩) (.identifier "c" ⟨12, 13⟩) ⟨9, 13⟩) (by decide)
  exact ⟨parsed, node.2.2⟩

end Abacus
