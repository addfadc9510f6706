import Abacus.Proofs.RunOutput

/-! # Conversations

The console reads lines from the standard input and answers each of them. The bytes of a text are
cut where its lines end, and each piece is read as the line that it encodes. So the output is a
prompt and an answer for every line, up to the first line that ends the conversation. -/

namespace Abacus.Console

open Text Text.Utf8

/-! ## Lines -/

/-- The lines of a text, each with its newline. What stands behind the last newline is a line too,
unless it is nothing. -/
def inputLines (text : String) : List String :=
  ((lines text).map fun line => String.ofList line.chars).filter (· ≠ "")

theorem splitLines_append {front : List UInt8} (inhabited : front ≠ []) (unbroken : 10 ∉ front)
    (rest : List UInt8) :
    splitLines (front ++ rest) =
      match splitLines rest with
      | [] => [front]
      | line :: more => (front ++ line) :: more := by
  induction front with
  | nil => contradiction
  | cons byte front induction =>
      rw [List.mem_cons, not_or] at unbroken
      rw [List.cons_append, splitLines, if_neg (Ne.symm unbroken.1)]
      cases front with
      | nil =>
          rw [List.nil_append]
          cases splitLines rest <;> rfl
      | cons next front =>
          rw [induction (by simp) unbroken.2]
          cases splitLines rest <;> rfl

theorem exists_linesFrom_cons (start : Nat) (char : Char) (rest : List Char) :
    ∃ line more, linesFrom start (char :: rest) = line :: more ∧ line.chars ≠ [] := by
  rw [linesFrom]
  split
  · exact ⟨_, _, rfl, by simp⟩
  · split
    · exact ⟨_, _, rfl, by simp⟩
    · exact ⟨_, _, rfl, by simp⟩

/-- The pieces of the encoded characters are the encoded lines. -/
theorem splitLines_flatMap (start : Nat) (chars : List Char) :
    splitLines (chars.flatMap String.utf8EncodeChar) =
      (((linesFrom start chars).map (·.chars)).filter (· ≠ [])).map
        (·.flatMap String.utf8EncodeChar) := by
  induction chars generalizing start with
  | nil => rfl
  | cons char rest induction =>
      have further := induction (start + char.utf8Size)
      rw [List.flatMap_cons, linesFrom]
      by_cases newline : char = '\n'
      · subst newline
        have cut : splitLines (String.utf8EncodeChar '\n' ++ rest.flatMap String.utf8EncodeChar) =
            [10] :: splitLines (rest.flatMap String.utf8EncodeChar) := rfl
        rw [cut, further]
        rfl
      · -- No byte of another character is a newline, so they all join the first piece behind.
        have inhabited : String.utf8EncodeChar char ≠ [] := by simp [utf8EncodeChar_eq]
        rw [splitLines_append inhabited (newline_notMem_utf8EncodeChar newline), further]
        simp only [if_neg newline]
        cases rest with
        | nil => simp [linesFrom]
        | cons next later =>
            rcases exists_linesFrom_cons (start + char.utf8Size) next later with
              ⟨line, more, equal, notEmpty⟩
            simp [equal, notEmpty]

theorem splitLines_encode (text : String) :
    splitLines (encode text) = (inputLines text).map encode := by
  have pieces := splitLines_flatMap 0 text.toList
  rw [← encode_ofList, String.ofList_toList] at pieces
  rw [pieces, inputLines, lines, List.filter_map, List.filter_map, List.map_map, List.map_map]
  simp [Function.comp_def, encode_ofList]

/-! ## Answers -/

/-- A line that was answered: the store that it found, and the answer. -/
structure Exchange where
  line : String
  before : Store
  reply : Reply Store

def Exchange.ofLine (mode : Mode) (store : Store) (line : String) : Exchange :=
  ⟨line, store, runLine mode store line⟩

/-- The lines that are answered one after the other, up to one that ends the conversation. -/
def exchanges (mode : Mode) (store : Store) : List String → List Exchange
  | [] => []
  | line :: rest =>
      let exchange := Exchange.ofLine mode store line
      exchange ::
        match exchange.reply.next with
        | none => []
        | some after => exchanges mode after rest

/-- What is written in a conversation. Behind the last line there is one more prompt, unless that
line ended it. -/
def transcript : List Exchange → String
  | [] => prompt
  | exchange :: rest =>
      prompt ++ exchange.reply.output.out ++
        match exchange.reply.next with
        | none => ""
        | some _ => transcript rest

theorem converse_encode (mode : Mode) (store : Store) (lines : List String) :
    (converse (runLine mode) store (lines.map encode)).EndsWith 0
      (transcript (exchanges mode store lines)) := by
  induction lines generalizing store with
  | nil => exact ⟨rfl, rfl⟩
  | cons line rest induction =>
      cases next : (runLine mode store line).next with
      | none =>
          simp only [List.map_cons, converse, text?_encode, exchanges, Exchange.ofLine, transcript,
            next]
          exact ⟨rfl, (String.append_empty).symm⟩
      | some after =>
          rcases induction after with ⟨code, out⟩
          simp only [List.map_cons, converse, text?_encode, exchanges, Exchange.ofLine, transcript,
            next]
          refine ⟨code, ?_⟩
          rw [← out]
          rfl

theorem perform_runLines (elapsed : String) (find : String → Document) (text : String)
    (mode : Mode) :
    (perform elapsed find (encode text) (.runLines mode)).EndsWith 0
      (transcript (exchanges mode .empty (inputLines text))) := by
  rw [perform, splitLines_encode]
  exact converse_encode mode .empty (inputLines text)

end Abacus.Console
