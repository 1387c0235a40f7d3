import OpenExpr.Proofs.Token.Cut

namespace OpenExpr

namespace Lexeme

namespace Scanner

/-- A line break ends whatever was read before it. -/
theorem feed_newline (s : Scanner) : s.feed '\n' = .ok (s.flush.moveTo '\n' .nothing) := by
  unfold feed
  cases s.pending <;> rfl

end Scanner

/-- The lexemes of a text come first in any text that goes on with it on a new line, and
what is wrong with the text stays wrong. -/
theorem ofSource_newline (a b : String) : ∃ offset, ofSource (a ++ "\n" ++ b) =
    (ofSource a).bind fun ls => (Scanner.read { offset } b.toList).map fun t => ls ++ t.lexemes := by
  have text : (a ++ "\n" ++ b).toList = a.toList ++ '\n' :: b.toList := by simp
  unfold ofSource
  rw [text, Scanner.read_append]
  cases Scanner.read {} a.toList with
  | error e => exact ⟨0, rfl⟩
  | ok s =>
    let offset := (s.flush.moveTo '\n' .nothing).offset
    have later := Scanner.read_onto { offset } s.flush.done b.toList
    refine ⟨offset, ?_⟩
    change ((s.feed '\n').bind fun t => t.read b.toList).map Scanner.lexemes =
      (Scanner.read { offset } b.toList).map fun t => s.lexemes ++ t.lexemes
    rw [Scanner.feed_newline]
    change (Scanner.read (.onto { offset } s.flush.done) b.toList).map Scanner.lexemes = _
    rw [later]
    cases Scanner.read { offset } b.toList with
    | error e => rfl
    | ok t => exact congrArg Except.ok (t.lexemes_onto s.flush.done)

/-- A line break at the end adds no lexeme. -/
theorem ofSource_line (a : String) : ofSource (a ++ "\n") = ofSource a := by
  obtain ⟨offset, read⟩ := ofSource_newline a ""
  rw [String.append_empty] at read
  rw [read]
  cases ofSource a with
  | error e => rfl
  | ok ls => exact congrArg Except.ok (List.append_nil ls)

end Lexeme

variable {level : Level} {file a b : String} {tokens : List Token}

/-- A character that belongs to no token is wrong whatever follows. -/
theorem isEndOfInput_of_tokenize {e : InputError} (run : tokenize level file a = .error e) :
    e.isEndOfInput = false := by
  unfold tokenize at run
  split at run <;> cases run
  rfl

/-- The tokens of a text come first in any text that goes on with it on a new line. -/
theorem tokenize_newline (run : tokenize level file (a ++ "\n" ++ b) = .ok tokens) :
    ∃ front finish more finish', tokenize level file a = .ok (front ++ [finish]) ∧
      tokens = front ++ more ++ [finish'] ∧ finish.kind = .endOfInput ∧
      finish'.kind = .endOfInput ∧ AllLexed level (front ++ more) := by
  obtain ⟨offset, read⟩ := Lexeme.ofSource_newline a b
  unfold tokenize at run ⊢
  cases first : Lexeme.ofSource a with
  | error e =>
    rw [read, first] at run
    cases run
  | ok ls =>
    rw [first] at read
    cases second : Lexeme.Scanner.read { offset } b.toList with
    | error e =>
      rw [second] at read
      rw [read] at run
      cases run
    | ok t =>
      rw [second] at read
      have lexed := Lexeme.allLexed_of_ofSource read file level
      rw [read] at run
      cases run
      rw [List.map_append] at lexed
      exact ⟨_, _, t.lexemes.map (Lexeme.toToken file level), _, rfl, by rw [List.map_append], rfl,
        rfl, lexed⟩

/-- Texts that consist of tokens do so too when one follows the other on a new line. -/
theorem tokenize_lines {tokens' : List Token} (run : tokenize level file a = .ok tokens)
    (run' : tokenize level file b = .ok tokens') :
    ∃ all, tokenize level file (a ++ "\n" ++ b) = .ok all := by
  obtain ⟨offset, read⟩ := Lexeme.ofSource_newline a b
  have moved := Lexeme.SameReading.refl b.toList { offset } {} rfl
  unfold tokenize at run run' ⊢
  cases first : Lexeme.ofSource a with
  | error e =>
    rw [first] at run
    cases run
  | ok ls =>
    cases second : Lexeme.Scanner.read {} b.toList with
    | error e =>
      rw [Lexeme.ofSource, second] at run'
      cases run'
    | ok t =>
      rw [second] at moved
      obtain ⟨u, same, _⟩ := Lexeme.Scanner.outcome_eq_ok.mp moved
      rw [read, first, same]
      exact ⟨_, rfl⟩

/-- A text that ends in a line break has the tokens that it has without. -/
theorem tokenize_line {finish : Token} (run : tokenize level file a = .ok (tokens ++ [finish])) :
    ∃ finish', tokenize level file (a ++ "\n") = .ok (tokens ++ [finish']) ∧
      finish'.kind = .endOfInput := by
  unfold tokenize at run ⊢
  rw [Lexeme.ofSource_line]
  cases read : Lexeme.ofSource a with
  | error e =>
    rw [read] at run
    cases run
  | ok ls =>
    rw [read] at run
    obtain ⟨rfl, _⟩ := List.append_inj' (Except.ok.inj run) rfl
    exact ⟨_, rfl, rfl⟩

end OpenExpr
