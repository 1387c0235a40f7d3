import OpenExpr.Proofs.Grammar.Separation
import OpenExpr.Proofs.Placement.Coherence
import OpenExpr.Proofs.Recovery.Statement
import OpenExpr.Proofs.Text.Cut

namespace OpenExpr

open Parse

/-- Tokens up to their first semicolon, if they have one. -/
theorem HasNoSemicolon.or_split (w : List Token) : HasNoSemicolon w ∨
    ∃ v d rest, w = v ++ d :: rest ∧ HasNoSemicolon v ∧ d.kind = .semicolon := by
  rcases Text.free_or_split (fun t : Token => t.kind == .semicolon) w with
    free | ⟨v, d, rest, split, semicolon, free⟩
  · exact .inl fun t member => by simpa using free t member
  · exact .inr ⟨v, d, rest, split, fun t member => by simpa using free t member,
      by simpa using semicolon⟩

namespace TokenStream

/-- The stream behind a semicolon that was taken of it. -/
def behind (s : TokenStream) (d : Token) (rest : List Token) : TokenStream :=
  { s with pending := rest, readTo := some d.span.stop }

theorem advance_eq_behind {s : TokenStream} {d : Token} {rest : List Token}
    (pending : s.pending = d :: rest) : s.advance = s.behind d rest := by
  simp [advance, behind, pending]

theorem synchronize_eq_behind {s : TokenStream} {w rest : List Token} {d : Token}
    (pending : s.pending = w ++ d :: rest) (free : HasNoSemicolon w) (semicolon : d.kind = .semicolon) :
    s.synchronize = s.behind d rest := by
  have skips : ∀ s : TokenStream, s.pending = w ++ d :: rest →
      synchronize.go s (w ++ d :: rest) = s.behind d rest := by
    clear pending
    induction w with
    | nil =>
      intro s pending
      rw [List.nil_append, synchronize.go, if_pos semicolon, advance_eq_behind pending]
    | cons t w ih =>
      obtain ⟨other, others⟩ := HasNoSemicolon.cons_iff.mp free
      intro s pending
      rw [List.cons_append, synchronize.go, if_neg other,
        ih others s.advance (pending_advance_of_pending pending), advance_eq_behind pending]
      rfl
  rw [← skips s pending, ← pending]
  rfl

/-- Without a semicolon the rest is skipped. -/
theorem pending_synchronize {s : TokenStream} (free : HasNoSemicolon s.pending) :
    s.synchronize.pending = [] := by
  have skips (w : List Token) (free : HasNoSemicolon w) : ∀ s : TokenStream, s.pending = w →
      (synchronize.go s w).pending = [] := by
    induction w with
    | nil => exact fun s pending => pending
    | cons t w ih =>
      obtain ⟨other, others⟩ := HasNoSemicolon.cons_iff.mp free
      intro s pending
      rw [synchronize.go, if_neg other]
      exact ih others s.advance (pending_advance_of_pending pending)
  exact skips s.pending free s rfl

end TokenStream

namespace SourceReader

/-- What the first tokens up to a semicolon contribute, and the reader behind them. -/
def round (r : SourceReader) : List SyntaxTree × SourceReader :=
  if r.tokens.current.kind = .semicolon then ([], r.skip)
  else
    match ParseUnit.statement r with
    | .error e r => ([.ofError e], r.synchronize)
    | .ok tree r =>
      if r.tokens.current.kind = .semicolon then ([tree], r.skip)
      else if r.tokens.hasTokens then
        ([tree, .ofError (r.tokens.unexpectedDetailed "expected `;` between statements")],
          r.synchronize)
      else ([tree], r)

theorem statements_of_end {r : SourceReader} (atEnd : r.tokens.pending = []) (budget : Nat) :
    statements budget r = ([], r) := by
  cases budget with
  | zero => rfl
  | succ budget => simp [statements, TokenStream.hasTokens, atEnd]

/-- Statements are read in rounds. -/
theorem statements_succ {r : SourceReader} (some : r.tokens.pending ≠ []) (budget : Nat) :
    statements (budget + 1) r = (r.round.1 ++ (statements budget r.round.2).1,
      (statements budget r.round.2).2) := by
  have more : ¬ (!r.tokens.hasTokens) = true := by simp [TokenStream.hasTokens, some]
  rw [statements, if_neg more, round]
  split
  · rfl
  · cases ParseUnit.statement r with
    | error e r' => rfl
    | ok tree r' =>
      dsimp only
      split
      · rfl
      · split
        · rfl
        · rename_i atEnd
          rw [statements_of_end (by simpa [TokenStream.hasTokens] using atEnd)]
          rfl

/-- After a round the operator is known whose header it started with. -/
theorem grammar_round {r : SourceReader} (full : r.grammar.isBare = false) :
    r.round.2.grammar = r.grammar.introduce (Grammar.introduced? r.tokens) := by
  have after := ParseUnit.grammarAfter_statement full
  unfold round
  split
  · rename_i semicolon
    simp [Grammar.introduced?, semicolon, skip, Grammar.introduce]
  · cases run : ParseUnit.statement r with
    | error e r' =>
      rw [run] at after
      exact after
    | ok tree r' =>
      rw [run] at after
      dsimp only
      split
      · exact after
      · split <;> exact after

/-- What stands between a statement and its semicolon is reported at its first token. -/
def stray : List Token → List SyntaxTree
  | [] => []
  | t :: _ =>
    [.ofError { cause := .unexpectedTokenDetailed t.text "expected `;` between statements"
                position := t.span.start }]

variable {g : Grammar} {x s : TokenStream} {d : Token} {rest : List Token}

theorem free_of_statement (free : HasNoSemicolon x.pending) :
    HasNoSemicolon (leftover (g.statement x)).pending := by
  obtain ⟨w, split⟩ := (g.steady_statement x.pending.length).forward x (Nat.le_refl _)
  rw [split] at free
  exact (HasNoSemicolon.append_iff.mp free).2

theorem current_ne_semicolon (some : x.pending ≠ []) (free : HasNoSemicolon x.pending)
    (pending : s.pending = x.pending ++ rest) : s.current.kind ≠ .semicolon := by
  obtain ⟨t, w, front⟩ := List.exists_cons_of_ne_nil some
  rw [front] at free pending
  rw [TokenStream.current_of_pending pending]
  exact (HasNoSemicolon.cons_iff.mp free).1

/-- A statement in front of its semicolon contributes itself and what is left in between. -/
theorem round_of_ok (start : x.readTo = none) (some : x.pending ≠ [])
    (free : HasNoSemicolon x.pending) (semicolon : d.kind = .semicolon)
    (pending : s.pending = x.pending ++ d :: rest) {a : SyntaxTree × Option OperatorDefinition}
    {t : TokenStream} (run : g.statement x = .ok a t) :
    round ⟨g, s⟩ = (a.1 :: stray t.pending, ⟨g.introduce a.2, s.behind d rest⟩) := by
  have left := free_of_statement (g := g) free
  have read := g.statement_ok_before start some semicolon pending run
  rw [run] at left
  rw [round, if_neg (current_ne_semicolon some free pending),
    ParseUnit.statement_follows.ok (r := ⟨g, s⟩) read]
  dsimp only
  cases between : t.pending with
  | nil =>
    have next : (t.followedBy { s with pending := d :: rest }).pending = d :: rest := by
      simp [TokenStream.followedBy, between]
    rw [TokenStream.current_of_pending next, if_pos semicolon]
    simp only [stray, skip, TokenStream.advance_eq_behind next]
    rfl
  | cons v w =>
    have next : (t.followedBy { s with pending := d :: rest }).pending = v :: (w ++ d :: rest) := by
      simp [TokenStream.followedBy, between]
    have other : v.kind ≠ .semicolon :=
      (HasNoSemicolon.cons_iff.mp (by simpa [leftover, between] using left)).1
    rw [TokenStream.current_of_pending next, if_neg other, if_pos (by simp [TokenStream.hasTokens, next])]
    simp only [stray, synchronize, TokenStream.unexpectedDetailed, next]
    rw [TokenStream.synchronize_eq_behind (w := t.pending) rfl left semicolon]
    rfl

/-- What stands instead of a statement contributes what is wrong with it, the same
whatever is behind its semicolon. -/
theorem round_of_error (full : g.isBare = false) (start : x.readTo = none) (some : x.pending ≠ [])
    (free : HasNoSemicolon x.pending) (semicolon : d.kind = .semicolon) {e : InputError}
    {t : TokenStream} (run : g.statement x = .error e t) : ∃ e', ∀ s rest,
      s.pending = x.pending ++ d :: rest → (∃ s', g.statement s = .error e' s') ∧
        round ⟨g, s⟩ =
          ([.ofError e'], ⟨g.introduce (Grammar.introduced? x), s.behind d rest⟩) := by
  have left := free_of_statement (g := g) free
  rw [run] at left
  obtain ⟨e', same⟩ := g.statement_error_before start some semicolon run
  refine ⟨e', fun s rest pending => ?_⟩
  obtain ⟨s', read, next, finish⟩ := same s rest pending
  refine ⟨⟨s', read⟩, ?_⟩
  rw [round, if_neg (current_ne_semicolon some free pending),
    ParseUnit.statement_error (r := ⟨g, s⟩) full read]
  dsimp only [synchronize]
  rw [TokenStream.synchronize_eq_behind next left semicolon,
    Grammar.introduced?_before some semicolon pending]
  simp only [TokenStream.behind, finish]

/-- What is behind a semicolon has no say in the round that it ends. -/
theorem round_before (full : g.isBare = false) (start : x.readTo = none)
    (free : HasNoSemicolon x.pending) (semicolon : d.kind = .semicolon) :
    ∃ trees g', g'.isBare = false ∧ ∀ s rest, s.pending = x.pending ++ d :: rest →
      round ⟨g, s⟩ = (trees, ⟨g', s.behind d rest⟩) := by
  by_cases some : x.pending = []
  · refine ⟨[], g, full, fun s rest pending => ?_⟩
    rw [some, List.nil_append] at pending
    rw [round, if_pos (by rwa [TokenStream.current_of_pending pending]), skip]
    simp only [TokenStream.advance_eq_behind pending]
  · cases run : g.statement x with
    | ok a t =>
      refine ⟨a.1 :: stray t.pending, g.introduce a.2, (g.isBare_introduce _).trans full, ?_⟩
      exact fun s rest pending => round_of_ok start some free semicolon pending run
    | error e t =>
      obtain ⟨e', same⟩ := round_of_error full start some free semicolon run
      exact ⟨_, _, (g.isBare_introduce _).trans full, fun s rest pending => (same s rest pending).2⟩

/-- Without a semicolon a statement contributes itself and what is left behind it. -/
theorem round_last_of_ok (some : s.pending ≠ []) (free : HasNoSemicolon s.pending)
    {a : SyntaxTree × Option OperatorDefinition} {t : TokenStream}
    (run : g.statement s = .ok a t) : ∃ s', s'.pending = [] ∧
      round ⟨g, s⟩ = (a.1 :: stray t.pending, ⟨g.introduce a.2, s'⟩) := by
  have left := free_of_statement (g := g) free
  rw [run] at left
  rw [round, if_neg (current_ne_semicolon some free (List.append_nil _).symm),
    ParseUnit.statement_follows.ok (r := ⟨g, s⟩) run]
  dsimp only
  cases between : t.pending with
  | nil =>
    refine ⟨t, between, ?_⟩
    rw [if_neg (by rw [TokenStream.current_kind_of_end between]; decide),
      if_neg (by simp [TokenStream.hasTokens, between])]
    rfl
  | cons v w =>
    refine ⟨t.synchronize, TokenStream.pending_synchronize left, ?_⟩
    have other : v.kind ≠ .semicolon :=
      (HasNoSemicolon.cons_iff.mp (by simpa [leftover, between] using left)).1
    rw [TokenStream.current_of_pending between, if_neg other,
      if_pos (by simp [TokenStream.hasTokens, between])]
    simp only [stray, synchronize, TokenStream.unexpectedDetailed, between]

theorem round_last_of_error (full : g.isBare = false) (some : s.pending ≠ [])
    (free : HasNoSemicolon s.pending) {e : InputError} {t : TokenStream}
    (run : g.statement s = .error e t) : ∃ s', s'.pending = [] ∧
      round ⟨g, s⟩ = ([.ofError e], ⟨g.introduce (Grammar.introduced? s), s'⟩) := by
  have left := free_of_statement (g := g) free
  rw [run] at left
  refine ⟨t.synchronize, TokenStream.pending_synchronize left, ?_⟩
  rw [round, if_neg (current_ne_semicolon some free (List.append_nil _).symm),
    ParseUnit.statement_error (r := ⟨g, s⟩) full run]
  rfl

/-- How far the input was read before has no say in the last round. -/
theorem round_last (full : g.isBare = false) (some : s.pending ≠ [])
    (free : HasNoSemicolon s.pending) : ∃ trees g', g'.isBare = false ∧
      (∃ s', s'.pending = [] ∧ round ⟨g, s⟩ = (trees, ⟨g', s'⟩)) ∧
      ∃ s', s'.pending = [] ∧ round ⟨g, s.fresh⟩ = (trees, ⟨g', s'⟩) := by
  cases run : g.statement s with
  | ok a t =>
    have run' : g.statement s.fresh = .ok a t := by
      rcases g.forgets_statement s some with same | ⟨e, failed, _⟩
      · rw [same, run]
      · rw [run] at failed
        cases failed
    exact ⟨_, _, (g.isBare_introduce _).trans full, round_last_of_ok some free run,
      round_last_of_ok (s := s.fresh) some free run'⟩
  | error e t =>
    obtain ⟨t', run'⟩ : ∃ t', g.statement s.fresh = .error e t' := by
      rcases g.forgets_statement s some with same | ⟨e', failed, failed'⟩
      · exact ⟨t, same.trans run⟩
      · rw [run] at failed
        cases failed
        exact ⟨_, failed'⟩
    have header : Grammar.introduced? s.fresh = Grammar.introduced? s := by
      unfold Grammar.introduced?
      rw [TokenStream.advance_fresh some]
      rfl
    have last := round_last_of_error (s := s.fresh) full some free run'
    rw [header] at last
    exact ⟨_, _, (g.isBare_introduce _).trans full, round_last_of_error full some free run, last⟩

/-- The runs of tokens that semicolons end, each with its semicolon, and the run behind
the last of them. -/
def runs (tokens : List Token) : List (List Token) :=
  Text.piecesAfter (fun t => t.kind == .semicolon) tokens

/-- What runs contribute that are read each by itself, with the operators that are known
from those before it. The input ends like `s`. -/
def rounds (s : TokenStream) : Grammar → List (List Token) → List SyntaxTree × Grammar
  | g, [] => ([], g)
  | g, run :: later =>
    let first := round ⟨g, { s with pending := run, readTo := none }⟩
    (first.1 ++ (rounds s first.2.grammar later).1, (rounds s first.2.grammar later).2)

theorem rounds_append (s : TokenStream) (g : Grammar) (first later : List (List Token)) :
    rounds s g (first ++ later) = ((rounds s g first).1 ++ (rounds s (rounds s g first).2 later).1,
      (rounds s (rounds s g first).2 later).2) := by
  induction first generalizing g with
  | nil => rfl
  | cons run first ih => simp [rounds, ih]

/-- Of the stream nothing but its end has a say in the rounds. -/
theorem rounds_of_finish {s' : TokenStream} (same : s.finish = s'.finish) (g : Grammar)
    (later : List (List Token)) : rounds s g later = rounds s' g later := by
  obtain ⟨_, _, _, _⟩ := s
  obtain ⟨_, _, _, _⟩ := s'
  cases same
  induction later generalizing g with
  | nil => rfl
  | cons run later ih => simp only [rounds, ih]

theorem runs_of_free {w : List Token} (free : HasNoSemicolon w) (some : w ≠ []) : runs w = [w] :=
  Text.piecesAfter_of_free _ (fun t member => by simpa using free t member) some

theorem runs_of_ended {w rest : List Token} (free : HasNoSemicolon w)
    (semicolon : d.kind = .semicolon) : runs (w ++ d :: rest) = (w ++ [d]) :: runs rest :=
  Text.piecesAfter_piece _ (fun t member => by simpa using free t member) (by simpa using semicolon)
    rest

/-- Runs are read each by itself, by induction on the rounds. -/
theorem statements_eq_rounds {r : SourceReader} {budget : Nat} (full : r.grammar.isBare = false)
    (enough : r.tokens.pending.length ≤ budget) :
    (statements budget r).1 = (rounds r.tokens r.grammar (runs r.tokens.pending)).1 ∧
      (statements budget r).2.grammar = (rounds r.tokens r.grammar (runs r.tokens.pending)).2 := by
  induction budget generalizing r with
  | zero =>
    have atEnd := List.eq_nil_of_length_eq_zero (Nat.le_zero.mp enough)
    rw [atEnd]
    exact ⟨rfl, rfl⟩
  | succ budget ih =>
    obtain ⟨g, s⟩ := r
    by_cases some : s.pending = []
    · rw [statements_of_end some, some]
      exact ⟨rfl, rfl⟩
    rw [statements_succ some]
    rcases HasNoSemicolon.or_split s.pending with free | ⟨w, d, rest, pending, free, semicolon⟩
    · obtain ⟨trees, g', _, ⟨s', atEnd, whole⟩, s'', _, alone⟩ := round_last full some free
      rw [whole, statements_of_end atEnd, runs_of_free free some]
      have first : round ⟨g, { s with pending := s.pending, readTo := none }⟩ = _ := alone
      simp [rounds, first]
    · let x : TokenStream := { s with pending := w, readTo := none }
      obtain ⟨trees, g', full', same⟩ := round_before (x := x) full rfl free semicolon
      have whole := same s rest pending
      have alone := same { s with pending := w ++ [d], readTo := none } [] rfl
      have fewer : (s.behind d rest).pending.length ≤ budget := by
        simp only [pending, List.length_append, List.length_cons] at enough
        simp only [TokenStream.behind]
        omega
      have later := ih (r := ⟨g', s.behind d rest⟩) full' fewer
      rw [rounds_of_finish (show (s.behind d rest).finish = s.finish from rfl)] at later
      rw [whole]
      dsimp only
      rw [pending, runs_of_ended free semicolon, rounds, alone, later.1, later.2]
      exact ⟨rfl, rfl⟩

end SourceReader

end OpenExpr
