import OpenExpr.Proofs.Recovery.Rounds

namespace OpenExpr

open Parse InputError

/-- The node stands for input that could not be read, and that was no number. -/
def SyntaxTree.IsFault (t : SyntaxTree) : Prop :=
  ∃ e : InputError, e.IsNoNumber ∧ t = .ofError e

namespace SourceReader

variable {level : Level} {r : SourceReader}

/-- What a round over tokens of a source cannot read is no number, and it leaves tokens of
a source. -/
theorem isFault_round (lexed : AllLexed level r.tokens.pending) :
    (∀ t ∈ r.round.1, t.kind = .error → t.IsFault) ∧ AllLexed level r.round.2.tokens.pending := by
  have outcome := r.grammar.yields_statement r.tokens lexed
  unfold round
  split
  · exact ⟨by simp, lexed.advance⟩
  cases run : r.grammar.statement r.tokens with
  | error e s =>
    rw [run] at outcome
    obtain ⟨g, same⟩ := ParseUnit.statement_follows.error run
    simp only [same, List.mem_singleton, forall_eq]
    exact ⟨fun _ => ⟨e, outcome.1, rfl⟩, allLexed_synchronize (s := s) outcome.2⟩
  | ok a s =>
    rw [run] at outcome
    obtain ⟨unit, lexed⟩ := outcome
    have readable (error : a.1.kind = .error) : a.1.IsFault := absurd error unit.readable
    simp only [ParseUnit.statement_follows.ok run]
    split
    · simp only [List.mem_singleton, forall_eq]
      exact ⟨readable, lexed.advance⟩
    split
    · simp only [List.forall_mem_cons]
      exact ⟨⟨readable, fun _ => ⟨_, s.isNoNumber_unexpectedDetailed _, rfl⟩, by simp⟩,
        allLexed_synchronize lexed⟩
    · simp only [List.mem_singleton, forall_eq]
      exact ⟨readable, lexed⟩

theorem isFault_of_mem_statements (budget : Nat) (lexed : AllLexed level r.tokens.pending) :
    ∀ t ∈ (statements budget r).1, t.kind = .error → t.IsFault := by
  induction budget generalizing r with
  | zero => simp [statements]
  | succ budget ih =>
    by_cases atEnd : r.tokens.pending = []
    · simp [statements_of_end atEnd]
    · obtain ⟨first, rest⟩ := isFault_round lexed
      rw [statements_succ atEnd]
      exact List.forall_mem_append.mpr ⟨first, ih rest⟩

end SourceReader

namespace Session

/-- The text has a fault: it cannot be read at all, or a unit of it cannot. -/
inductive HasFault (s : Session) (mode : ParseMode) (text : String) (e : InputError) : Prop
  | whole : (s.syntaxTree mode text).1 = .error e → HasFault s mode text e
  | unit {tree} : (s.syntaxTree mode text).1 = .ok tree → .ofError e ∈ tree.children →
      HasFault s mode text e

theorem isNoNumber_of_error {s : Session} {mode : ParseMode} {text : String} {e : InputError}
    (failed : (s.syntaxTree mode text).1 = .error e) : e.IsNoNumber := by
  unfold syntaxTree at failed
  cases run : tokenize s.env.options.level s.sourceName text with
  | error stray =>
    simp only [run, Except.error.injEq] at failed
    unfold tokenize at run
    split at run
    · cases run
    · cases run
      cases failed
      exact isNoNumber_of_cause (by simp)
  | ok tokens =>
    have lexed := allLexed_ofTokens run
    simp only [run] at failed
    cases mode with
    | fullSource => cases failed
    | repl =>
      let g : Grammar := { level := s.env.options.level, operators := s.env.operators }
      have outcome := g.yields_single _ lexed
      rw [parse_repl] at failed
      cases single : g.single (.ofTokens s.sourceName tokens) with
      | error e' rest =>
        rw [single] at outcome failed
        cases failed
        exact outcome.1
      | ok a rest =>
        rw [single] at failed
        cases failed

/-- What a text has in place of a unit that cannot be read is such a fault. -/
theorem isFault_of_syntaxTree {s : Session} {mode : ParseMode} {text : String} {tree : SyntaxTree}
    (read : (s.syntaxTree mode text).1 = .ok tree) :
    ∀ t ∈ tree.children, t.kind = .error → t.IsFault := by
  have shape := s.isRead_of_syntaxTree read
  cases shape with
  | single unit => simpa using fun error => absurd error unit.readable
  | source =>
    obtain ⟨tokens, table, run, parsed, _⟩ := parse_of_syntaxTree (Prod.ext read rfl)
    cases parsed
    exact SourceReader.isFault_of_mem_statements _ (allLexed_ofTokens run)

theorem HasFault.isNoNumber {s : Session} {mode : ParseMode} {text : String} {e : InputError}
    (fault : s.HasFault mode text e) : e.IsNoNumber := by
  cases fault with
  | whole failed => exact isNoNumber_of_error failed
  | unit read member =>
    obtain ⟨e', other, same⟩ := isFault_of_syntaxTree read _ member rfl
    have message : e.message = e'.message := congrArg SyntaxTree.text same
    intro text
    rw [message]
    exact other text

end Session

end OpenExpr
