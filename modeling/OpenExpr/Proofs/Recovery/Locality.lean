import OpenExpr.Proofs.Placement.Sequence
import OpenExpr.Proofs.Recovery.Rounds
import OpenExpr.Proofs.Token.Sample

namespace OpenExpr

open Parse

/-- None of the tokens is the end of the input. -/
def HasNoEnd (w : List Token) : Prop :=
  ∀ t ∈ w, t.kind ≠ .endOfInput

instance (w : List Token) : Decidable (HasNoEnd w) :=
  inferInstanceAs (Decidable (∀ t ∈ w, t.kind ≠ .endOfInput))

/-- The tokens behind the end of the input, if it is marked. -/
def StartsAtEnd (rest : List Token) : Prop :=
  ∀ t, rest.head? = some t → t.kind = .endOfInput

namespace TokenStream

/-- Tokens in front are read first. -/
theorem ofTokens_append (file : String) {w : List Token} (endless : HasNoEnd w) (rest : List Token) :
    ofTokens file (w ++ rest) =
      { ofTokens file rest with pending := w ++ (ofTokens file rest).pending } := by
  have front : ∀ t ∈ w, (t.kind != .endOfInput) = true := fun t member => by
    simpa using endless t member
  have none : w.find? (fun t => t.kind == .endOfInput) = none := by
    simpa using fun t member => endless t member
  have finish : finishOf file (w ++ rest) = finishOf file rest := by
    simp [finishOf, none]
  simp [ofTokens, List.takeWhile_append_of_pos front, finish]

theorem pending_ofTokens_of_end (file : String) {rest : List Token} (atEnd : StartsAtEnd rest) :
    (ofTokens file rest).pending = [] := by
  cases rest with
  | nil => rfl
  | cons t rest => simp [ofTokens, atEnd t rfl]

end TokenStream

namespace SourceReader

variable {g : Grammar} {x s : TokenStream}

theorem runs_append {a : List Token} (ended : a = [] ∨ ∃ d, a.getLast? = some d ∧ d.kind = .semicolon)
    (b : List Token) : runs (a ++ b) = runs a ++ runs b ∧
      ∀ run ∈ runs a, ∃ w d, run = w ++ [d] ∧ HasNoSemicolon w ∧ d.kind = .semicolon := by
  rcases ended with rfl | ⟨d, last, semicolon⟩
  · exact ⟨rfl, by simp [runs, Text.piecesAfter, Text.cutAfter]⟩
  · obtain ⟨front, rfl⟩ := List.getLast?_eq_some_iff.mp last
    have free := Text.not_of_mem_cutAfter_rest (fun t : Token => t.kind == .semicolon) front
    have whole (b : List Token) := Text.cutAfter_append (fun t : Token => t.kind == .semicolon)
      front (d :: b)
    simp only [Text.cutAfter_piece _ free (show (d.kind == .semicolon) = true by simpa)] at whole
    have pieces := Text.exists_of_mem_cutAfter (fun t : Token => t.kind == .semicolon) (front ++ [d])
    have split : front ++ [d] ++ b = front ++ d :: b := by simp
    refine ⟨?_, ?_⟩
    · simp [runs, Text.piecesAfter, split, whole, Text.cutAfter]
    · intro run member
      obtain ⟨w, e, same, last, others⟩ := pieces run (by simpa [runs, Text.piecesAfter, whole, Text.cutAfter] using member)
      exact ⟨w, e, same, fun t inside => by simpa using others t inside, by simpa using last⟩

/-- Where semicolons end all runs, the end of the input has no say in them. -/
theorem rounds_of_ended (full : g.isBare = false) {later : List (List Token)}
    (ended : ∀ run ∈ later, ∃ w d, run = w ++ [d] ∧ HasNoSemicolon w ∧ d.kind = .semicolon) :
    rounds s g later = rounds x g later := by
  induction later generalizing g with
  | nil => rfl
  | cons run later ih =>
    obtain ⟨⟨w, d, rfl, free, semicolon⟩, others⟩ := List.forall_mem_cons.mp ended
    let alone : TokenStream := { s with pending := w, readTo := none }
    obtain ⟨trees, g', full', same⟩ := round_before (x := alone) full rfl free semicolon
    have first := same { s with pending := w ++ [d], readTo := none } [] rfl
    have first' := same { x with pending := w ++ [d], readTo := none } [] rfl
    simp only [rounds, first, first', ih full' others]

theorem rounds_grammar (s : TokenStream) (level : Level) (operators : OperatorTable)
    (later : List (List Token)) :
    (rounds s { level, operators } later).2 =
      { level, operators := (rounds s { level, operators } later).2.operators } := by
  induction later generalizing operators with
  | nil => rfl
  | cons run later ih =>
    have after := grammar_round
      (r := ⟨{ level, operators }, { s with pending := run, readTo := none }⟩) rfl
    rw [Grammar.introduce_mk] at after
    simp only [rounds, after]
    exact ih _

end SourceReader

/-- Nothing, or a semicolon. -/
def IsEnding (ended : List Token) : Prop :=
  ended = [] ∨ ∃ d, ended = [d] ∧ d.kind = .semicolon

namespace Grammar

variable {g : Grammar} {x s : TokenStream} {ended : List Token}

/-- Only a semicolon may stand behind a statement. -/
theorem ending_ok_iff {v : List Token} (free : HasNoSemicolon v) (ending : IsEnding ended)
    (pending : s.pending = v ++ ended) (start : Position) (tree : SyntaxTree) :
    (∃ t s', Grammar.ending start tree s = .ok t s') ↔ v = [] := by
  have step : Grammar.ending start tree s =
      (if s.current.kind = .semicolon then advance >>= fun _ => closing start tree
        else closing start tree) s := by
    change (eat .semicolon >>= fun _ => closing start tree) s = _
    rw [eat_bind]
    exact bind_ok (current_apply s) _
  rw [step]
  cases v with
  | cons u v =>
    rw [TokenStream.current_of_pending pending, if_neg (HasNoSemicolon.cons_iff.mp free).1,
      closing_of_tokens (by simp [pending])]
    simp
  | nil =>
    rw [List.nil_append] at pending
    simp only [iff_true]
    rcases ending with rfl | ⟨d, rfl, semicolon⟩
    · rw [TokenStream.current_kind_of_end pending, if_neg (by decide), closing_of_end pending]
      exact ⟨_, _, rfl⟩
    · rw [TokenStream.current_of_pending pending, if_pos semicolon, bind_ok (advance_apply s),
        closing_of_end (TokenStream.pending_advance_of_pending pending)]
      exact ⟨_, _, rfl⟩

theorem single_apply (s : TokenStream) : g.single s = (g.statement >>= fun a =>
    Grammar.ending s.current.span.start a.1 >>= fun tree => pure (tree, a.2)) s := rfl

/-- A run is a statement by itself exactly if it is read as one to its end. -/
theorem single_ok_iff_statement (start : x.readTo = none) (some : x.pending ≠ [])
    (free : HasNoSemicolon x.pending) (ending : IsEnding ended)
    (same : s = { x with pending := x.pending ++ ended }) :
    (∃ a s', g.single s = .ok a s') ↔ ∃ a t, g.statement x = .ok a t ∧ t.pending = [] := by
  have left := SourceReader.free_of_statement (g := g) free
  cases run : g.statement x with
  | error e t =>
    obtain ⟨e', s', read⟩ : ∃ e' s', g.statement s = .error e' s' := by
      rcases ending with rfl | ⟨d, rfl, semicolon⟩
      · exact ⟨e, t, by rw [same, List.append_nil]; exact run⟩
      · obtain ⟨e', before⟩ := g.statement_error_before start some semicolon run
        obtain ⟨s', read, _⟩ := before s [] (by rw [same])
        exact ⟨e', s', read⟩
    rw [single_apply, bind_error read]
    simp
  | ok a t =>
    replace left : HasNoSemicolon t.pending := by rwa [run] at left
    obtain ⟨s', read, pending⟩ : ∃ s', g.statement s = .ok a s' ∧ s'.pending = t.pending ++ ended := by
      rcases ending with rfl | ⟨d, rfl, semicolon⟩
      · exact ⟨t, by rw [same, List.append_nil]; exact run, (List.append_nil _).symm⟩
      · exact ⟨_, g.statement_ok_before start some semicolon (by rw [same]) run, rfl⟩
    have accepts := ending_ok_iff (s := s') left ending pending s.current.span.start a.1
    rw [single_apply, bind_ok read]
    cases closed : Grammar.ending s.current.span.start a.1 s' with
    | error e s'' =>
      rw [bind_error closed]
      simp only [closed] at accepts
      simpa using accepts
    | ok tree s'' =>
      rw [bind_ok closed]
      have atEnd := accepts.mp ⟨tree, s'', closed⟩
      exact ⟨fun _ => ⟨a, t, rfl, atEnd⟩, fun _ => ⟨_, _, rfl⟩⟩

end Grammar

namespace ParseUnit

variable {α : Type} {u : ParseUnit α} {p : Grammar → Parse (α × Option OperatorDefinition)}
  {r r' : SourceReader}

theorem Follows.eq_ok (h : u.Follows p) {b : α} (run : u r = .ok b r') : ∃ a s,
    p r.grammar r.tokens = .ok a s ∧ a.1 = b ∧
      { grammar := r.grammar.introduce a.2, tokens := s } = r' := by
  cases read : p r.grammar r.tokens with
  | ok a s =>
    rw [h.ok read] at run
    cases run
    exact ⟨a, s, rfl, rfl, rfl⟩
  | error e s =>
    obtain ⟨g, failed⟩ := h.error read
    rw [failed] at run
    cases run

theorem Follows.eq_error (h : u.Follows p) {e : InputError} (run : u r = .error e r') :
    ∃ s, p r.grammar r.tokens = .error e s := by
  cases read : p r.grammar r.tokens with
  | ok a s =>
    rw [h.ok read] at run
    cases run
  | error e' s =>
    obtain ⟨g, failed⟩ := h.error read
    rw [failed] at run
    cases run
    exact ⟨s, rfl⟩

end ParseUnit

open SourceReader

/-- A whole source is its runs, each read by itself. -/
theorem parse_fullSource (level : Level) (operators : OperatorTable) (file : String)
    (tokens : List Token) :
    let s := TokenStream.ofTokens file tokens
    let r := rounds s { level, operators } (runs s.pending)
    ∃ tree, parse level operators .fullSource file tokens = (.ok tree, r.2.operators) ∧
      tree.children = r.1 := by
  have same := statements_eq_rounds (r := .ofTokens { level, operators } file tokens) rfl
    (Nat.le_refl _)
  refine ⟨_, Prod.ext rfl ?_, same.1⟩
  exact congrArg Grammar.operators same.2

/-- What a source reports of the tokens up to a semicolon is what these report alone, and what
it reports of the others is what they report with the operators that are known by then. -/
theorem fullSource_append (level : Level) (operators : OperatorTable) (file : String)
    {a : List Token} (endless : HasNoEnd a)
    (ended : a = [] ∨ ∃ d, a.getLast? = some d ∧ d.kind = .semicolon) {e : List Token}
    (atEnd : StartsAtEnd e) (b : List Token) :
    let first := parse level operators .fullSource file (a ++ e)
    let later := parse level first.2 .fullSource file b
    let whole := parse level operators .fullSource file (a ++ b)
    ∃ t u v, first.1 = .ok t ∧ later.1 = .ok u ∧ whole.1 = .ok v ∧
      v.children = t.children ++ u.children ∧ whole.2 = later.2 := by
  obtain ⟨split, each⟩ := runs_append ended (TokenStream.ofTokens file b).pending
  obtain ⟨t, first, trees⟩ := parse_fullSource level operators file (a ++ e)
  obtain ⟨v, whole, trees'⟩ := parse_fullSource level operators file (a ++ b)
  obtain ⟨u, later, trees''⟩ :=
    parse_fullSource level (parse level operators .fullSource file (a ++ e)).2 file b
  rw [TokenStream.ofTokens_append file endless, TokenStream.pending_ofTokens_of_end file atEnd,
    List.append_nil, rounds_of_ended (x := .ofTokens file b) rfl each] at first trees
  rw [TokenStream.ofTokens_append file endless] at whole trees'
  have finish : ({ TokenStream.ofTokens file b with
      pending := a ++ (TokenStream.ofTokens file b).pending } : TokenStream).finish =
      (TokenStream.ofTokens file b).finish := rfl
  rw [split, rounds_of_finish finish, rounds_append, rounds_grammar] at whole trees'
  rw [first] at later trees''
  refine ⟨t, u, v, by rw [first], by simp only [first, later], by rw [whole], ?_, ?_⟩
  · rw [trees', trees, trees'']
  · simp only [whole, first, later]

namespace SourceReader

variable {g : Grammar} {s : TokenStream} {w ended : List Token}

/-- A run with the semicolon that ends it is read in one round. -/
theorem rounds_of_run (start : s.readTo = none) (pending : s.pending = w ++ ended)
    (free : HasNoSemicolon w) (ending : IsEnding ended) (some : s.pending ≠ []) :
    rounds s g (runs s.pending) = ((round ⟨g, s⟩).1, (round ⟨g, s⟩).2.grammar) := by
  have once : runs s.pending = [s.pending] := by
    rcases ending with rfl | ⟨d, rfl, semicolon⟩
    · rw [List.append_nil] at pending
      rw [pending] at some ⊢
      exact runs_of_free free some
    · rw [pending, runs_of_ended free semicolon]
      rfl
  have here : ({ s with pending := s.pending, readTo := none } : TokenStream) = s := by
    rw [← start]
  simp only [once, rounds, here, List.append_nil]

theorem grammar_rounds_of_run (full : g.isBare = false) (start : s.readTo = none)
    (pending : s.pending = w ++ ended) (free : HasNoSemicolon w) (ending : IsEnding ended) :
    (rounds s g (runs s.pending)).2 = g.introduce (Grammar.introduced? s) := by
  by_cases some : s.pending = []
  · have none : Grammar.introduced? s = none := by
      simp [Grammar.introduced?, TokenStream.current_kind_of_end some]
    rw [none, some]
    rfl
  · rw [rounds_of_run start pending free ending some]
    exact grammar_round full

theorem rounds_of_empty_run (start : s.readTo = none) (pending : s.pending = ended)
    (ending : IsEnding ended) : (rounds s g (runs s.pending)).1 = [] := by
  rcases ending with rfl | ⟨d, rfl, semicolon⟩
  · rw [pending]
    rfl
  · rw [rounds_of_run (w := []) start pending .nil (.inr ⟨d, rfl, semicolon⟩) (by simp [pending])]
    simp [round, TokenStream.current_of_pending pending, semicolon]

/-- What the round of a run contributes, told by the statement that it starts with. -/
theorem rounds_of_some_run {x : TokenStream} (full : g.isBare = false) (start : x.readTo = none)
    (some : x.pending ≠ []) (free : HasNoSemicolon x.pending) (ending : IsEnding ended)
    (same : s = { x with pending := x.pending ++ ended }) :
    (∀ a t, g.statement x = .ok a t →
        (rounds s g (runs s.pending)).1 = a.1 :: stray t.pending) ∧
      ∀ e t, g.statement x = .error e t →
        ∃ e', (rounds s g (runs s.pending)).1 = [.ofError e'] := by
  have pending : s.pending = x.pending ++ ended := by rw [same]
  have once := rounds_of_run (g := g) (by rw [same]; exact start) pending free ending
    (by simp [pending, some])
  rw [once]
  rcases ending with rfl | ⟨d, rfl, semicolon⟩
  · rw [List.append_nil] at same
    subst same
    refine ⟨fun a t run => ?_, fun e t run => ⟨e, ?_⟩⟩
    · obtain ⟨s', _, last⟩ := round_last_of_ok some free run
      rw [last]
    · obtain ⟨s', _, last⟩ := round_last_of_error full some free run
      rw [last]
  · refine ⟨fun a t run => ?_, fun e t run => ?_⟩
    · rw [round_of_ok start some free semicolon pending run]
    · obtain ⟨e', before⟩ := round_of_error full start some free semicolon run
      exact ⟨e', by rw [(before s [] pending).2]⟩

theorem stray_eq_nil_iff (v : List Token) : stray v = [] ↔ v = [] := by
  cases v <;> simp [stray]

/-- A run contributes nothing but a statement exactly if it is one by itself. -/
theorem single_ok_iff_rounds {x : TokenStream} (full : g.isBare = false) (start : x.readTo = none)
    (free : HasNoSemicolon x.pending) (ending : IsEnding ended)
    (same : s = { x with pending := x.pending ++ ended }) :
    (∃ a s', g.single s = .ok a s') ↔
      ∃ a t, g.statement x = .ok a t ∧ (rounds s g (runs s.pending)).1 = [a.1] := by
  by_cases some : x.pending = []
  · have pending : s.pending = ended := by rw [same, some, List.nil_append]
    have stop : s.current.kind = .semicolon ∨ s.current.kind = .endOfInput := by
      rcases ending with rfl | ⟨d, rfl, semicolon⟩
      · exact .inr (TokenStream.current_kind_of_end pending)
      · exact .inl (by rwa [TokenStream.current_of_pending pending])
    rw [g.single_apply, bind_error (g.statement_of_stop stop),
      rounds_of_empty_run (by rw [same]; exact start) pending ending]
    simp
  · obtain ⟨reads, _⟩ := rounds_of_some_run full start some free ending same
    rw [Grammar.single_ok_iff_statement start some free ending same]
    constructor
    · rintro ⟨a, t, run, atEnd⟩
      exact ⟨a, t, run, by rw [reads a t run, atEnd]; rfl⟩
    · rintro ⟨a, t, run, once⟩
      rw [reads a t run] at once
      exact ⟨a, t, run, (stray_eq_nil_iff t.pending).mp (List.cons.inj once).2⟩

end SourceReader

/-- What a run of tokens contributes to a source is what is read of it as a statement, and
an error for what cannot be read. -/
theorem fullSource_run (level : Level) (operators : OperatorTable) (file : String)
    {w ended e : List Token} (endless : HasNoEnd w) (free : HasNoSemicolon w)
    (ending : IsEnding ended) (atEnd : StartsAtEnd e) :
    let source := parse level operators .fullSource file (w ++ ended ++ e)
    let single := parse level operators .repl file (w ++ ended ++ e)
    let alone := ParseUnit.statement (.ofTokens { level, operators } file (w ++ e))
    ∃ t, source.1 = .ok t ∧ source.2 = single.2 ∧ (w = [] → t.children = []) ∧
      (∀ tree r, w ≠ [] → alone = .ok tree r → t.children = tree :: stray r.tokens.pending) ∧
      (∀ fault r, w ≠ [] → alone = .error fault r → ∃ fault', t.children = [.ofError fault']) ∧
      ((∃ tree, single.1 = .ok tree) ↔ ∃ tree r, alone = .ok tree r ∧ t.children = [tree]) := by
  let g : Grammar := { level, operators }
  let x := TokenStream.ofTokens file (w ++ e)
  let s := TokenStream.ofTokens file (w ++ ended ++ e)
  have endless' : HasNoEnd (w ++ ended) := by
    refine List.forall_mem_append.mpr ⟨endless, ?_⟩
    rcases ending with rfl | ⟨d, rfl, semicolon⟩ <;> simp [*]
  have here : x = { TokenStream.ofTokens file e with pending := w } := by
    simp [x, TokenStream.ofTokens_append file endless, TokenStream.pending_ofTokens_of_end file atEnd]
  have same : s = { x with pending := x.pending ++ ended } := by
    simp [s, here, TokenStream.ofTokens_append file endless',
      TokenStream.pending_ofTokens_of_end file atEnd]
  have run : x.pending = w := by rw [here]
  have pending : s.pending = w ++ ended := by rw [same, run]
  obtain ⟨t, source, children⟩ := parse_fullSource level operators file (w ++ ended ++ e)
  have follows := ParseUnit.statement_follows
  have known := grammar_rounds_of_run (g := g) (s := s) rfl rfl pending free ending
  have accepts := single_ok_iff_rounds (g := g) (x := x) rfl rfl (run ▸ free) ending same
  refine ⟨t, by rw [source], ?_, fun none => ?_, fun tree r some read => ?_, fun fault r some read => ?_, ?_⟩
  · rw [source, parse_repl_operators]
    exact congrArg Grammar.operators known
  · rw [children]
    exact rounds_of_empty_run (s := s) rfl (by rw [pending, none, List.nil_append]) ending
  · obtain ⟨reads, _⟩ := rounds_of_some_run (g := g) (x := x) rfl rfl (run ▸ some) (run ▸ free)
      ending same
    obtain ⟨a, u, found, rfl, rfl⟩ := follows.eq_ok read
    exact children.trans (reads a u found)
  · obtain ⟨_, fails⟩ := rounds_of_some_run (g := g) (x := x) rfl rfl (run ▸ some) (run ▸ free)
      ending same
    obtain ⟨u, found⟩ := follows.eq_error read
    obtain ⟨fault', only⟩ := fails fault u found
    exact ⟨fault', children.trans only⟩
  · rw [parse_repl_ok, children]
    refine accepts.trans ⟨?_, ?_⟩
    · rintro ⟨a, u, found, only⟩
      exact ⟨a.1, _, follows.ok (r := ⟨g, x⟩) found, only⟩
    · rintro ⟨tree, r, read, only⟩
      obtain ⟨a, u, found, rfl, rfl⟩ := follows.eq_ok read
      exact ⟨a, u, found, only⟩

/-- A fault never reaches beyond the semicolon behind it. The tokens up to a semicolon
contribute to a source what they contribute alone, and the others what they contribute
with the operators that are known by then. A run without semicolons contributes nothing if
it is empty, else the statement that is read of it, an error, or both, and nothing but the
statement exactly if it is one by itself. -/
theorem recovery_is_local (level : Level) (operators : OperatorTable) (file : String)
    {e : List Token} (atEnd : StartsAtEnd e) :
    (∀ a b, HasNoEnd a → (a = [] ∨ ∃ d, a.getLast? = some d ∧ d.kind = .semicolon) →
      let first := parse level operators .fullSource file (a ++ e)
      let later := parse level first.2 .fullSource file b
      let whole := parse level operators .fullSource file (a ++ b)
      ∃ t u v, first.1 = .ok t ∧ later.1 = .ok u ∧ whole.1 = .ok v ∧
        v.children = t.children ++ u.children ∧ whole.2 = later.2) ∧
    ∀ w ended, HasNoEnd w → HasNoSemicolon w → IsEnding ended →
      let source := parse level operators .fullSource file (w ++ ended ++ e)
      let single := parse level operators .repl file (w ++ ended ++ e)
      let alone := ParseUnit.statement (.ofTokens { level, operators } file (w ++ e))
      ∃ t, source.1 = .ok t ∧ source.2 = single.2 ∧ (w = [] → t.children = []) ∧
        (w ≠ [] →
          (∃ unit r, alone = .ok unit r ∧
            (t.children = [unit] ∨ ∃ fault, t.children = [unit, .ofError fault])) ∨
          ∃ fault r, alone = .error fault r ∧ ∃ fault', t.children = [.ofError fault']) ∧
        ((∃ tree, single.1 = .ok tree) ↔ ∃ unit r, alone = .ok unit r ∧ t.children = [unit]) := by
  refine ⟨fun a b endless ended => fullSource_append level operators file endless ended atEnd b,
    fun w ended endless free ending => ?_⟩
  obtain ⟨t, source, known, none, reads, fails, accepts⟩ :=
    fullSource_run level operators file endless free ending atEnd
  refine ⟨t, source, known, none, fun some => ?_, accepts⟩
  cases alone : ParseUnit.statement (.ofTokens { level, operators } file (w ++ e)) with
  | error fault r => exact .inr ⟨fault, r, rfl, fails fault r some alone⟩
  | ok unit r =>
    have children := reads unit r some alone
    refine .inl ⟨unit, r, rfl, ?_⟩
    cases left : r.tokens.pending with
    | nil => exact .inl (by rw [children, left]; rfl)
    | cons v rest => exact .inr ⟨_, by rw [children, left]; rfl⟩

/-- In front of `z ;` a name too many and a parenthesis that is not closed are reported,
and `z` is read as ever. -/
theorem faults_in_front_are_local :
    let name := Token.sample .mutableVariables .word
    let mark := Token.sample .mutableVariables .mark
    let a := [name "x", name "y", mark ";", mark "(", mark ";"]
    let b := [name "z", mark ";"]
    let first := parse .mutableVariables .empty .fullSource "" (a ++ [])
    let later := parse .mutableVariables first.2 .fullSource "" b
    let whole := parse .mutableVariables .empty .fullSource "" (a ++ b)
    HasNoEnd a ∧ StartsAtEnd [] ∧ ∃ t u v, first.1 = .ok t ∧ later.1 = .ok u ∧ whole.1 = .ok v ∧
      v.children = t.children ++ u.children ∧ whole.2 = later.2 ∧
      v.children.map SyntaxTree.kind =
        [.topLevelExpression, .error, .error, .topLevelExpression] := by
  intro name mark a b first later whole
  have endless : HasNoEnd a := by decide
  have atEnd : StartsAtEnd [] := by simp [StartsAtEnd]
  obtain ⟨t, u, v, read, read', read'', children, known⟩ :=
    (recovery_is_local .mutableVariables .empty "" atEnd).1 a b endless (.inr ⟨mark ";", rfl, rfl⟩)
  refine ⟨endless, atEnd, t, u, v, read, read', read'', children, known, ?_⟩
  have kinds : whole.1.map (fun t => t.children.map SyntaxTree.kind) =
      .ok [.topLevelExpression, .error, .error, .topLevelExpression] := by
    decide +kernel
  rw [show whole.1 = .ok v from read''] at kinds
  exact Except.ok.inj kinds

end OpenExpr
