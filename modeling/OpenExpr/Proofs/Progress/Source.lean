import Mathlib.Data.List.TakeWhile
import OpenExpr.Proofs.Progress.Powers
import OpenExpr.Proofs.Progress.Statement
import OpenExpr.Proofs.Progress.Unbudgeted
import OpenExpr.Proofs.Token.Sample

namespace OpenExpr

open Parse

namespace SourceReader

variable {r r' : SourceReader} {trees : List SyntaxTree}

/-- Each round takes a token, and contributes no more trees than it takes tokens. -/
theorem exists_round (some : r.tokens.pending ≠ []) : ∃ n, 0 < n ∧ n ≤ r.tokens.pending.length ∧
    r.round.2.tokens = r.tokens.drop n ∧ r.round.1.length ≤ n := by
  have first := List.length_pos_iff.mpr some
  unfold round
  split
  · exact ⟨1, Nat.one_pos, first, r.tokens.drop_one.symm, Nat.zero_le 1⟩
  have moves := ParseUnit.advances_statement r
  cases run : ParseUnit.statement r with
  | error e r' =>
    rw [run] at moves
    obtain ⟨n, inside, left⟩ := moves
    obtain ⟨m, resumed, forward, inside', taken⟩ := TokenStream.exists_synchronize_drop inside
    have some : 0 < m := by omega
    exact ⟨m, some, inside', by rw [← resumed, ← left]; rfl, some⟩
  | ok tree r' =>
    rw [run] at moves
    obtain ⟨n, some, inside, left⟩ := moves
    have behind := r.tokens.length_pending_drop n
    rw [← left] at behind
    dsimp only
    split
    · rename_i semicolon
      have next := TokenStream.length_pending_pos (s := r'.tokens) (by rw [semicolon]; decide)
      refine ⟨n + 1, Nat.succ_pos n, by omega, ?_, Nat.le_add_left 1 n⟩
      rw [← r.tokens.drop_drop n 1, ← left]
      rfl
    · split
      · rename_i more
        obtain ⟨m, resumed, _, inside', taken⟩ := TokenStream.exists_synchronize_drop inside
        have next : 0 < r'.tokens.pending.length :=
          List.length_pos_iff.mpr (by simpa [TokenStream.hasTokens] using more)
        -- the statement and what is wrong behind it are two trees
        have two : 2 ≤ m := by omega
        exact ⟨m, by omega, inside', by rw [← resumed, ← left]; rfl, two⟩
      · exact ⟨n, some, inside, left, some⟩

/-- Rounds up to the end of the input, however many, with what they contribute. -/
inductive Finishes : SourceReader → List SyntaxTree → SourceReader → Prop
  | done {r : SourceReader} : r.tokens.hasTokens = false → Finishes r [] r
  | next {r r' : SourceReader} {trees : List SyntaxTree} : r.tokens.hasTokens = true → Finishes r.round.2 trees r' →
      Finishes r (r.round.1 ++ trees) r'

/-- Every reader finishes, and a budget of one round for each token is enough for it. -/
theorem finishes_statements {budget : Nat} (enough : r.tokens.pending.length ≤ budget) :
    Finishes r (statements budget r).1 (statements budget r).2 := by
  induction budget generalizing r with
  | zero =>
    have atEnd := List.eq_nil_of_length_eq_zero (Nat.le_zero.mp enough)
    exact .done (by simp [TokenStream.hasTokens, atEnd])
  | succ budget ih =>
    by_cases some : r.tokens.pending = []
    · rw [statements_of_end some]
      exact .done (by simp [TokenStream.hasTokens, some])
    · obtain ⟨n, taken, _, left, _⟩ := exists_round some
      have fewer : r.round.2.tokens.pending.length ≤ budget := by
        rw [left, TokenStream.length_pending_drop]
        omega
      rw [statements_succ some]
      exact .next (by simp [TokenStream.hasTokens, some]) (ih fewer)

/-- What is contributed on the way to the end is no more than there are tokens. -/
theorem Finishes.length_le (finishes : Finishes r trees r') :
    trees.length ≤ r.tokens.pending.length ∧
      r'.tokens = r.tokens.drop r.tokens.pending.length := by
  induction finishes with
  | @done r atEnd =>
    have atEnd : r.tokens.pending = [] := by simpa [TokenStream.hasTokens] using atEnd
    rw [atEnd]
    exact ⟨Nat.le_refl 0, rfl⟩
  | @next r r' trees some _ ih =>
    obtain ⟨n, _, inside, left, few⟩ := exists_round (by simpa [TokenStream.hasTokens] using some)
    rw [left, TokenStream.length_pending_drop, TokenStream.drop_drop, Nat.add_sub_cancel' inside] at ih
    refine ⟨?_, ih.2⟩
    rw [List.length_append]
    omega

/-- The rounds leave no operator behind whose power wraps around. -/
theorem Finishes.isBounded (finishes : Finishes r trees r') (full : r.grammar.isBare = false)
    (bounded : r.grammar.operators.IsBounded) : r'.grammar.operators.IsBounded := by
  induction finishes with
  | done => exact bounded
  | @next r _ _ _ _ ih =>
    have after := grammar_round full
    rw [after] at ih
    exact ih ((Grammar.isBare_introduce _ _).trans full) (Grammar.isBounded_introduce bounded _)

end SourceReader

namespace TokenStream

/-- The place of the end of a token list, which is its first end of input if it has one. -/
def endOf (tokens : List Token) : Nat :=
  tokens.findIdx fun t => t.kind == .endOfInput

/-- A token list of which the first `n` tokens were read. -/
def place (file : String) (tokens : List Token) (n : Nat) : TokenStream :=
  (ofTokens file tokens).drop n

theorem endOf_le_length (tokens : List Token) : endOf tokens ≤ tokens.length :=
  List.findIdx_le_length

variable {file : String} {tokens : List Token} {n : Nat}

theorem pending_place : (place file tokens n).pending = (tokens.take (endOf tokens)).drop n := by
  have before : (ofTokens file tokens).pending = tokens.take (endOf tokens) := by
    simp [ofTokens, endOf, List.takeWhile_eq_take_findIdx_not, bne]
  rw [place, pending_drop, before]

theorem length_pending_place : (place file tokens n).pending.length = endOf tokens - n := by
  rw [pending_place, List.length_drop, List.length_take, Nat.min_eq_left (endOf_le_length tokens)]

theorem finish_place : (place file tokens n).finish = finishOf file tokens := by
  have still (s : TokenStream) : (s.drop n).finish = s.finish := by
    induction n generalizing s with
    | zero => rfl
    | succ n ih => rw [drop, ih, finish_advance]
  exact still _

/-- Each token is read at its own place. A list that has no end gets one. -/
theorem current_place (inside : n ≤ endOf tokens) :
    (place file tokens n).current = tokens.getD n (.endAt { offset := 0, file }) := by
  rcases Nat.lt_or_eq_of_le inside with before | rfl
  · have some : n < (tokens.take (endOf tokens)).length := by
      rw [List.length_take, Nat.min_eq_left (endOf_le_length tokens)]
      exact before
    rw [current_of_pending (pending_place.trans (List.drop_eq_getElem_cons some)), List.getElem_take,
      List.getD_eq_getElem?_getD, List.getElem?_eq_getElem, Option.getD_some]
  · have atEnd : (place file tokens (endOf tokens)).pending = [] :=
      List.eq_nil_of_length_eq_zero (by rw [length_pending_place, Nat.sub_self])
    rw [current, atEnd]
    change (place file tokens (endOf tokens)).finish = _
    rw [finish_place, finishOf, List.find?_eq_getElem?_findIdx, List.getD_eq_getElem?_getD]
    rfl

end TokenStream

open TokenStream (endOf place)

namespace ParseUnit

variable {α : Type} {file : String} {tokens : List Token}

/-- From every place up to the end, what is read ends at a later place, and what fails
fails no earlier. Neither goes past the end. -/
def Progresses (u : ParseUnit α) (file : String) (tokens : List Token) : Prop :=
  ∀ g, ∀ n ≤ endOf tokens,
    match u ⟨g, place file tokens n⟩ with
    | .ok _ r => ∃ m, n < m ∧ m ≤ endOf tokens ∧ r.tokens = place file tokens m
    | .error _ r => ∃ m, n ≤ m ∧ m ≤ endOf tokens ∧ r.tokens = place file tokens m

theorem Advances.progresses {u : ParseUnit α} (h : Advances 1 u) : u.Progresses file tokens := by
  intro g n inside
  have moves := h ⟨g, place file tokens n⟩
  cases run : u ⟨g, place file tokens n⟩ with
  | ok a r =>
    rw [run] at moves
    obtain ⟨k, taken, more, left⟩ := moves
    rw [TokenStream.length_pending_place] at more
    exact ⟨n + k, by omega, by omega, left.trans (TokenStream.drop_drop _ n k)⟩
  | error e r =>
    rw [run] at moves
    obtain ⟨k, more, left⟩ := moves
    rw [TokenStream.length_pending_place] at more
    exact ⟨n + k, by omega, by omega, left.trans (TokenStream.drop_drop _ n k)⟩

end ParseUnit

/-- So does every round of a source, with no more trees than tokens that it takes. -/
theorem SourceReader.round_progresses {file : String} {tokens : List Token} (g : Grammar) {n : Nat}
    (before : n < endOf tokens) : ∃ m, n < m ∧ m ≤ endOf tokens ∧
      (round ⟨g, place file tokens n⟩).2.tokens = place file tokens m ∧
      (round ⟨g, place file tokens n⟩).1.length ≤ m - n := by
  have size : (place file tokens n).pending.length = endOf tokens - n :=
    TokenStream.length_pending_place
  obtain ⟨k, taken, more, left, few⟩ := exists_round (r := ⟨g, place file tokens n⟩)
    (List.length_pos_iff.mp (by rw [size]; omega))
  rw [size] at more
  exact ⟨n + k, by omega, by omega, left.trans (TokenStream.drop_drop _ n k), by omega⟩

/-- A token list comes to an outcome in both modes, with the reader left at some place. Of a
whole source every token is read, and it has no more children than there are tokens. If no
operator of the table has a power that wraps around, none has afterwards. -/
structure Outcomes (level : Level) (operators : OperatorTable) (file : String)
    (tokens : List Token) : Prop where
  repl : ∃ m ≤ endOf tokens, ∃ r, r.tokens = place file tokens m ∧
    ((∃ tree, 0 < m ∧ ParseUnit.single (.ofTokens { level, operators } file tokens) = .ok tree r ∧
        parse level operators .repl file tokens = (.ok tree, r.grammar.operators)) ∨
      ∃ e, ParseUnit.single (.ofTokens { level, operators } file tokens) = .error e r ∧
        parse level operators .repl file tokens = (.error e, r.grammar.operators))
  fullSource : ∃ tree r,
    parse level operators .fullSource file tokens = (.ok tree, r.grammar.operators) ∧
    SourceReader.Finishes (.ofTokens { level, operators } file tokens) tree.children r ∧
    r.tokens = place file tokens (endOf tokens) ∧
    tree.kind = .fullSource ∧ tree.children.length ≤ endOf tokens
  powers : operators.IsBounded → ∀ mode, (parse level operators mode file tokens).2.IsBounded

theorem outcomes (level : Level) (operators : OperatorTable) (file : String)
    (tokens : List Token) : Outcomes level operators file tokens where
  repl := by
    have single : ParseUnit.single.Progresses file tokens := ParseUnit.advances_single.progresses
    have progresses := single { level, operators } 0 (Nat.zero_le _)
    have start : ({ grammar := { level, operators }, tokens := place file tokens 0 } : SourceReader) =
        .ofTokens { level, operators } file tokens := rfl
    rw [start] at progresses
    cases run : ParseUnit.single (.ofTokens { level, operators } file tokens) with
    | ok tree r =>
      rw [run] at progresses
      obtain ⟨m, some, inside, left⟩ := progresses
      exact ⟨m, inside, r, left, .inl ⟨tree, some, rfl, by simp only [parse, run]⟩⟩
    | error e r =>
      rw [run] at progresses
      obtain ⟨m, _, inside, left⟩ := progresses
      exact ⟨m, inside, r, left, .inr ⟨e, rfl, by simp only [parse, run]⟩⟩
  fullSource := by
    have finishes := SourceReader.finishes_statements
      (r := .ofTokens { level, operators } file tokens) (Nat.le_refl _)
    obtain ⟨few, last⟩ := finishes.length_le
    have size : (SourceReader.ofTokens { level, operators } file tokens).tokens.pending.length =
        endOf tokens := TokenStream.length_pending_place (n := 0)
    have left := last.trans (congrArg (TokenStream.drop _) size)
    exact ⟨_, _, rfl, finishes, left, rfl, few.trans_eq size⟩
  powers bounded mode := by
    cases mode with
    | repl =>
      rw [parse_repl_operators]
      exact Grammar.isBounded_introduce bounded _
    | fullSource =>
      have finishes := SourceReader.finishes_statements
        (r := .ofTokens { level, operators } file tokens) (Nat.le_refl _)
      exact finishes.isBounded rfl bounded

/-- Reading goes forward from every place up to the end and never past it, be it an expression,
a header, a statement or a round of a source. No budget cuts it short, so it comes to an outcome. -/
theorem reading_progresses_and_ends (file : String) (tokens : List Token) :
    (∀ n ≤ endOf tokens,
      (place file tokens n).current = tokens.getD n (.endAt { offset := 0, file }) ∧
      (place file tokens n).pending.length = endOf tokens - n) ∧
    (∀ power, (ParseUnit.reading fun g => g.expr power).Progresses file tokens) ∧
    ParseUnit.prototype.Progresses file tokens ∧
    ParseUnit.statement.Progresses file tokens ∧
    (∀ g n, n < endOf tokens → ∃ m, n < m ∧ m ≤ endOf tokens ∧
      (SourceReader.round ⟨g, place file tokens n⟩).2.tokens = place file tokens m ∧
      (SourceReader.round ⟨g, place file tokens n⟩).1.length ≤ m - n) ∧
    (∀ g : Grammar, g.Unbudgeted) ∧
    (∀ level operators, Outcomes level operators file tokens) ∧
    endOf tokens ≤ tokens.length :=
  ⟨fun _ inside => ⟨TokenStream.current_place inside, TokenStream.length_pending_place⟩,
    fun power => (ParseUnit.advances_reading fun _ => Grammar.advances_expr power).progresses,
    ParseUnit.advances_prototype.progresses, ParseUnit.advances_statement.progresses,
    fun g _ => SourceReader.round_progresses g, Grammar.unbudgeted,
    fun level operators => outcomes level operators file tokens, TokenStream.endOf_le_length tokens⟩

/-- What stands behind the end is not read. The first of two numbers is a statement and the second
is wrong behind it, so there are as many children as there can be. -/
theorem two_numbers_in_front_of_the_end :
    let number (text : String) : Token := .sample .simpleExpressions .number text
    let tokens := [number "1", number "2", .endAt { offset := 2, file := "a" }, number "3"]
    (place "a" tokens 2).current.kind = .endOfInput ∧
    (∀ g, (SourceReader.round ⟨g, place "a" tokens 1⟩).2.tokens = place "a" tokens 2) ∧
    (∀ level operators, ∃ tree table,
      parse level operators .fullSource "a" tokens = (.ok tree, table) ∧ tree.children.length ≤ 2) ∧
    (∀ level mode, (parse level .empty mode "a" tokens).2.IsBounded) ∧
    (parse .simpleExpressions .empty .fullSource "a" tokens).1.toOption.map
      (fun tree => tree.children.length) = some 2 := by
  intro number tokens
  have size : endOf tokens = 2 := by decide
  obtain ⟨current, _, _, _, rounds, _, outcomes, _⟩ := reading_progresses_and_ends "a" tokens
  refine ⟨?_, fun g => ?_, fun level operators => ?_,
    fun level => (outcomes level .empty).powers OperatorTable.isBounded_empty, by decide⟩
  · rw [(current 2 (by decide)).1]
    rfl
  · obtain ⟨m, forward, inside, left, _⟩ := rounds g 1 (by decide)
    have last : m = 2 := by omega
    rw [left, last]
  · obtain ⟨tree, r, read, _, _, _, few⟩ := (outcomes level operators).fullSource
    exact ⟨tree, _, read, by omega⟩

end OpenExpr
