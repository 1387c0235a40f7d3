import OpenExpr.Proofs.Levels.Reading
import OpenExpr.Proofs.Levels.Tokens
import OpenExpr.Proofs.Recovery.Rounds

namespace OpenExpr

open Parse

/-- The same reader at another level. -/
def SourceReader.atLevel (r : SourceReader) (level : Level) : SourceReader :=
  { r with grammar := r.grammar.atLevel level }

namespace ParseUnit

variable {α : Type} {u : ParseUnit α} {p : Grammar → Parse (α × Option OperatorDefinition)}
  {high : Level} {r r' : SourceReader} {a : α}

/-- Where reading succeeds the level is what it was, and reading at a higher level succeeds
in the same way. -/
theorem Follows.atLevel (follows : u.Follows p)
    (covers : Covers (p r.grammar) (p (r.grammar.atLevel high))) (run : u r = .ok a r') :
    u (r.atLevel high) = .ok a (r'.atLevel high) ∧ r'.grammar.level = r.grammar.level := by
  cases inner : p r.grammar r.tokens with
  | error e s =>
    obtain ⟨g, failed⟩ := follows.error inner
    rw [failed] at run
    cases run
  | ok b s =>
    rw [follows.ok inner] at run
    cases run
    have above := follows.ok (r := r.atLevel high) (covers _ _ _ inner)
    rw [above]
    refine ⟨?_, r.grammar.level_introduce b.2⟩
    rw [show (r.atLevel high).grammar = r.grammar.atLevel high from rfl, Grammar.introduce_atLevel]
    rfl

end ParseUnit

namespace SourceReader

variable {high : Level} {r : SourceReader}

/-- A round without errors is the same at a higher level. -/
theorem round_atLevel (le : r.grammar.level ≤ high) (sound : ∀ t ∈ r.round.1, t.kind ≠ .error) :
    (r.atLevel high).round = (r.round.1, r.round.2.atLevel high) ∧
      r.round.2.grammar.level = r.grammar.level := by
  unfold round at sound ⊢
  rw [show (r.atLevel high).tokens = r.tokens from rfl]
  split
  · exact ⟨rfl, rfl⟩
  rename_i other
  rw [if_neg other] at sound
  cases run : ParseUnit.statement r with
  | error e r' =>
    rw [run] at sound
    exact absurd rfl (sound _ (List.mem_singleton_self _))
  | ok tree r' =>
    have covers := r.grammar.covers_statement le
    obtain ⟨above, level⟩ := ParseUnit.statement_follows.atLevel covers run
    rw [run] at sound
    rw [above]
    dsimp only at sound ⊢
    rw [show (r'.atLevel high).tokens = r'.tokens from rfl]
    split
    · exact ⟨rfl, level⟩
    · rename_i unended
      rw [if_neg unended] at sound
      split
      · rename_i more
        rw [if_pos more] at sound
        exact absurd rfl (sound _ (List.mem_cons_of_mem _ (List.mem_singleton_self _)))
      · exact ⟨rfl, level⟩

/-- Statements without errors among them are the same at a higher level, by induction on
the rounds. -/
theorem statements_atLevel (budget : Nat) (le : r.grammar.level ≤ high)
    (sound : ∀ t ∈ (statements budget r).1, t.kind ≠ .error) :
    statements budget (r.atLevel high) =
      ((statements budget r).1, (statements budget r).2.atLevel high) := by
  induction budget generalizing r with
  | zero => rfl
  | succ budget ih =>
    by_cases atEnd : r.tokens.pending = []
    · rw [statements_of_end atEnd, statements_of_end (r := r.atLevel high) atEnd]
    · rw [statements_succ atEnd] at sound ⊢
      obtain ⟨here, later⟩ := List.forall_mem_append.mp sound
      obtain ⟨above, level⟩ := round_atLevel le here
      rw [statements_succ (r := r.atLevel high) atEnd, above]
      dsimp only
      rw [ih (level ▸ le) later]

end SourceReader

/-- What is read at a level without an error is read in the same way at all levels above,
and makes the same operators known. -/
theorem parse_atLevel {low high : Level} (le : low ≤ high) {operators table : OperatorTable}
    {mode : ParseMode} {file : String} {tokens : List Token} {tree : SyntaxTree}
    (read : parse low operators mode file tokens = (.ok tree, table))
    (sound : mode = .fullSource → ∀ t ∈ tree.children, t.kind ≠ .error) :
    parse high operators mode file tokens = (.ok tree, table) := by
  obtain ⟨r, start⟩ : ∃ r, SourceReader.ofTokens { level := low, operators } file tokens = r := ⟨_, rfl⟩
  have start' : SourceReader.ofTokens { level := high, operators } file tokens = r.atLevel high := by
    rw [← start]
    rfl
  have le' : r.grammar.level ≤ high := by
    rw [← start]
    exact le
  unfold parse at read ⊢
  rw [start] at read
  rw [start']
  cases mode with
  | repl =>
    dsimp only at read ⊢
    cases run : ParseUnit.single r with
    | error e r' =>
      rw [run] at read
      cases read
    | ok tree' r' =>
      obtain ⟨above, -⟩ := ParseUnit.single_follows.atLevel (r.grammar.covers_single le') run
      rw [run] at read
      cases read
      rw [above]
      rfl
  | fullSource =>
    cases read
    have same := SourceReader.statements_atLevel (r := r) r.tokens.pending.length le' (sound rfl)
    unfold SourceReader.fullSource
    dsimp only
    rw [show (r.atLevel high).tokens = r.tokens from rfl, same]
    rfl

/-- Each level is a superset of those below. A source consists of tokens at one level as at
the other, or fails with the same error; the tokens are the same but for names that become
keywords. Where none does, and no name is spelled like a keyword at all, whatever is read
without an error is read in the same way and makes the same operators known. -/
theorem level_extends_lower {low high : Level} (le : low ≤ high) (file source : String) :
    (∀ e, tokenize low file source = .error e ↔ tokenize high file source = .error e) ∧
    ∀ tokens, tokenize low file source = .ok tokens →
      ∃ tokens', tokenize high file source = .ok tokens' ∧
        List.Forall₂ (Token.Rises low high) tokens tokens' ∧
        (SparesKeywords tokens → tokens' = tokens ∧ ∀ operators mode tree table,
          parse low operators mode file tokens = (.ok tree, table) →
          (mode = .fullSource → ∀ t ∈ tree.children, t.kind ≠ .error) →
          parse high operators mode file tokens' = (.ok tree, table)) := by
  refine ⟨tokenize_error_iff low high file source, fun tokens run => ?_⟩
  obtain ⟨tokens', run', rises⟩ := tokenize_rises le run
  refine ⟨tokens', run', rises, fun spared => ?_⟩
  obtain rfl := eq_of_rises rises spared
  exact ⟨rfl, fun operators mode tree table read sound => parse_atLevel le read sound⟩

/-- A conditional is read above the level that introduces it as at that level, also with
an operator that is defined before. -/
theorem conditional_read_above :
    let source := "def f(x) if x | 1 then 1 else f(x - 1); f(3)"
    let operators := OperatorTable.empty.register '|' .infixLeft 15
    ∃ tokens tree table, Level.controlFlow ≤ .mutableVariables ∧
      tokenize .controlFlow "shell" source = .ok tokens ∧ SparesKeywords tokens ∧
      parse .controlFlow operators .fullSource "shell" tokens = (.ok tree, table) ∧
      tree.children.map SyntaxTree.kind = [.functionDefinition, .topLevelExpression] ∧
      tokenize .mutableVariables "shell" source = .ok tokens ∧
      parse .mutableVariables operators .fullSource "shell" tokens = (.ok tree, table) := by
  intro source operators
  let tokens := (tokenize .controlFlow "shell" source).toOption.getD []
  let r := SourceReader.ofTokens { level := .controlFlow, operators } "shell" tokens
  have run : tokenize .controlFlow "shell" source = .ok tokens := by decide +kernel
  have spared : SparesKeywords tokens := by decide +kernel
  have kinds : r.fullSource.1.children.map SyntaxTree.kind =
      [.functionDefinition, .topLevelExpression] := by decide +kernel
  have sound : ∀ t ∈ r.fullSource.1.children, t.kind ≠ .error := fun t member error => by
    have among := List.mem_map_of_mem (f := SyntaxTree.kind) member
    rw [kinds, error] at among
    exact absurd among (by decide)
  have read : parse .controlFlow operators .fullSource "shell" tokens =
      (.ok r.fullSource.1, r.fullSource.2.grammar.operators) := rfl
  have le : Level.controlFlow ≤ .mutableVariables := by decide
  obtain ⟨-, above⟩ := level_extends_lower le "shell" source
  obtain ⟨tokens', run', -, same⟩ := above tokens run
  obtain ⟨rfl, parsed⟩ := same spared
  exact ⟨_, _, _, le, run, spared, read, kinds, run', parsed _ _ _ _ read fun _ => sound⟩

end OpenExpr
