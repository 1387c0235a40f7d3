import OpenExpr.Proofs.Grammar.HeaderCompleteness
import OpenExpr.Proofs.Placement.Statement
import OpenExpr.Proofs.Token.Writing
import OpenExpr.Session

namespace OpenExpr

open Parse

namespace Grammar

variable {g : Grammar} {s : TokenStream}

theorem single_ok_iff (ordinary : g.IsOrdinary) (lexed : AllLexed g.level s.pending) :
    (∃ a s', g.single s = .ok a s') ↔ g.AllowsStatement s.pending := by
  constructor
  · rintro ⟨a, s', run⟩
    have takes := g.recognises_single.takes s lexed
    rw [run] at takes
    obtain ⟨w, split, derived⟩ := takes
    rw [g.single_ok run, List.append_nil] at split
    rwa [split]
  · intro derived
    obtain ⟨a, s', run, _⟩ := reads_single ordinary lexed derived s (List.append_nil _).symm
    exact ⟨a, s', run⟩

/-- An error in front of a token stays whatever follows, and in front of the end
something may follow that completes the statement. -/
theorem single_endOfInput_iff (ordinary : g.IsOrdinary) (lexed : AllLexed g.level s.pending) :
    (∃ e s', g.single s = .error e s' ∧ e.isEndOfInput = true) ↔
      (¬ ∃ a s', g.single s = .ok a s') ∧
        ∃ more, AllLexed g.level more ∧ ∃ a s', g.single (s.extend more) = .ok a s' := by
  constructor
  · rintro ⟨e, s', run, early⟩
    refine ⟨by simp [run], ?_⟩
    have takes := g.recognises_single.takes s lexed
    rw [run] at takes
    obtain ⟨_, more, lexed', derived⟩ := takes early
    exact ⟨more, lexed', (single_ok_iff (s := s.extend more) ordinary (lexed.append lexed')).mpr derived⟩
  · rintro ⟨rejected, more, _, a, s', accepted⟩
    cases run : g.single s with
    | ok a s' => exact absurd ⟨a, s', run⟩ rejected
    | error e s' =>
      refine ⟨e, s', rfl, Classical.byContradiction fun final => ?_⟩
      have steady := g.steady_single s.pending.length
      have still : ¬ Waits (g.single s) := by rwa [run]
      have same := steady.agrees s more (Nat.le_refl _)
        (.inr ⟨fun atEnd => still (steady.patient s atEnd), still⟩)
      rw [accepted, run] at same
      cases same

/-- Tokens that complete a statement may be taken from a source. -/
theorem single_ok_written (lexed : AllLexed g.level s.pending) {more written : List Token}
    (lexed' : AllLexed g.level more) (same : written.map Token.spelling = more.map Token.spelling)
    (accepted : ∃ a s', g.single (s.extend more) = .ok a s') :
    ∃ a s', g.single (s.extend written) = .ok a s' := by
  obtain ⟨a, s', run⟩ := accepted
  have finish : s.finish.Alike s.finish :=
    ⟨rfl, rfl, by simp [s.finish_kind], by simp [s.finish_kind]⟩
  have alike : (s.extend more).Alike (s.extend written) :=
    ⟨(lexed.append lexed').alike (by simp [TokenStream.extend, same]), finish⟩
  have agree := g.blind_single _ _ alike
  rw [run] at agree
  cases run' : g.single (s.extend written) with
  | ok a' s'' => exact ⟨a', s'', rfl⟩
  | error e s'' =>
    rw [run'] at agree
    cases agree

end Grammar

variable {level : Level} {operators : OperatorTable} {tokens : List Token} {finish : Token}

/-- Of the tokens of a source those before the end are read. -/
theorem ofTokens_body (file : String) (lexed : AllLexed level tokens)
    (final : finish.kind = .endOfInput) :
    TokenStream.ofTokens file (tokens ++ [finish]) =
      { pending := tokens, finish, finish_kind := final } := by
  have front : ∀ t ∈ tokens, (t.kind != .endOfInput) = true := fun t member => by
    simpa using (lexed t member).kind_ne_end
  have last : TokenStream.finishOf file (tokens ++ [finish]) = finish := by
    have none : tokens.find? (fun t => t.kind == .endOfInput) = none := by
      simpa using fun t member => (lexed t member).kind_ne_end
    simp [TokenStream.finishOf, none, final]
  unfold TokenStream.ofTokens
  congr
  simp [List.takeWhile_append_of_pos front, final]

/-- What is read of a source are tokens of it. -/
theorem allLexed_ofTokens {file source : String} (run : tokenize level file source = .ok tokens) :
    AllLexed level (TokenStream.ofTokens file tokens).pending := by
  obtain ⟨body, finish, rfl, final, lexed⟩ := tokenize_ok run
  rwa [ofTokens_body file lexed final]

/-- A text that has a tree consists of tokens, and the tree is what they are read as. -/
theorem Session.parse_of_syntaxTree {s s' : Session} {mode : ParseMode} {text : String}
    {tree : SyntaxTree} (read : s.syntaxTree mode text = (.ok tree, s')) : ∃ tokens table,
      tokenize s.env.options.level s.sourceName text = .ok tokens ∧
        OpenExpr.parse s.env.options.level s.env.operators mode s.sourceName tokens = (.ok tree, table) ∧
        s' = { s with env := { s.env with operators := table } } := by
  unfold syntaxTree at read
  cases run : tokenize s.env.options.level s.sourceName text with
  | error e => simp [run] at read
  | ok tokens =>
    cases parsed : OpenExpr.parse s.env.options.level s.env.operators mode s.sourceName tokens with
    | mk result table =>
      simp only [run, parsed] at read
      cases read
      exact ⟨tokens, table, rfl, parsed, rfl⟩

/-- Reading a token list by itself is reading a single statement. -/
theorem parse_repl (level : Level) (operators : OperatorTable) (file : String)
    (tokens : List Token) :
    (parse level operators .repl file tokens).1 =
      match Grammar.single { level, operators } (.ofTokens file tokens) with
      | .ok a _ => .ok a.1
      | .error e _ => .error e := by
  have follows := ParseUnit.single_follows
  unfold parse
  dsimp only
  cases run : Grammar.single { level, operators } (.ofTokens file tokens) with
  | ok a s => rw [follows.ok (r := .ofTokens { level, operators } file tokens) run]
  | error e s =>
    obtain ⟨g, same⟩ := follows.error (r := .ofTokens { level, operators } file tokens) run
    rw [same]

theorem parse_repl_ok (level : Level) (operators : OperatorTable) (file : String)
    (tokens : List Token) :
    (∃ tree, (parse level operators .repl file tokens).1 = .ok tree) ↔
      ∃ a s', Grammar.single { level, operators } (.ofTokens file tokens) = .ok a s' := by
  rw [parse_repl]
  cases Grammar.single { level, operators } (.ofTokens file tokens) with
  | ok a s => simp
  | error e s => simp

theorem parse_repl_endOfInput (level : Level) (operators : OperatorTable) (file : String)
    (tokens : List Token) :
    (∃ e, (parse level operators .repl file tokens).1 = .error e ∧ e.isEndOfInput = true) ↔
      ∃ e s', Grammar.single { level, operators } (.ofTokens file tokens) = .error e s' ∧
        e.isEndOfInput = true := by
  rw [parse_repl]
  cases Grammar.single { level, operators } (.ofTokens file tokens) with
  | ok a s => simp
  | error e s => simp

/-- A token list is accepted as a statement by itself exactly if the grammar of its
level derives it. Of the operators only which are prefix ones counts, not how
tightly any of them binds. -/
theorem parse_repl_ok_iff_derives
    (loosest : ∀ c op, operators.infixOp? c = some op → 0 ≤ op.precedence)
    (lexed : Lexed level tokens) (final : finish.kind = .endOfInput) (file : String) :
    (∃ tree, (parse level operators .repl file (tokens ++ [finish])).1 = .ok tree) ↔
      DerivesStatement level (fun c => (operators.prefixOp? c).isSome = true) tokens := by
  have ordinary : Grammar.IsOrdinary { level, operators } := ⟨rfl, loosest⟩
  rw [parse_repl_ok, ofTokens_body file lexed.isLexed final]
  exact Grammar.single_ok_iff ordinary lexed.isLexed

theorem OperatorTable.loosest_empty (c : Char) (op : Operator)
    (known : OperatorTable.empty.infixOp? c = some op) : 0 ≤ op.precedence := by
  unfold infixOp? at known
  cases builtIn : BuiltIn.ofSymbol? c with
  | none => simp [builtIn, empty] at known
  | some b =>
    rw [builtIn] at known
    cases known
    cases b <;> decide

theorem exists_of_isOk {ε α : Type} {r : Except ε α} (good : r.isOk = true) : ∃ a, r = .ok a := by
  cases r with
  | ok a => exact ⟨a, rfl⟩
  | error e => cases good

theorem exists_of_isEndOfInput {α : Type} {r : Except InputError α}
    (early : (match r with | .error e => e.isEndOfInput | .ok _ => false) = true) :
    ∃ e, r = .error e ∧ e.isEndOfInput = true := by
  cases r with
  | ok a => cases early
  | error e => exact ⟨e, rfl, early⟩

/-- The body of a definition may use the operator that its header introduces, and
an operand may end in a conditional that takes up the operators behind it. -/
theorem definition_of_prefix_derived :
    (∀ c op, OperatorTable.empty.infixOp? c = some op → 0 ≤ op.precedence) ∧
      DerivesStatement .userDefinedOperators
        (fun c => (OperatorTable.empty.prefixOp? c).isSome = true)
        (tokensOf .userDefinedOperators "def unary!(v) 1 + if v then 0 else !v * 2;") :=
  ⟨OperatorTable.loosest_empty,
    (parse_repl_ok_iff_derives OperatorTable.loosest_empty (lexed_tokensOf _ _)
      (rfl : (Token.endAt .null).kind = .endOfInput) "").mp (exists_of_isOk (by decide +kernel))⟩

/-- The tokens are no statement, but those of some source complete them to one. -/
def IsCompletable (level : Level) (operators : OperatorTable) (file : String) (finish : Token)
    (tokens : List Token) : Prop :=
  (¬ ∃ tree, (parse level operators .repl file (tokens ++ [finish])).1 = .ok tree) ∧
    ∃ more, Lexed level more ∧
      ∃ tree, (parse level operators .repl file (tokens ++ more ++ [finish])).1 = .ok tree

theorem parse_repl_endOfInput_iff
    (loosest : ∀ c op, operators.infixOp? c = some op → 0 ≤ op.precedence)
    (lexed : Lexed level tokens) (final : finish.kind = .endOfInput) (file : String) :
    (∃ e, (parse level operators .repl file (tokens ++ [finish])).1 = .error e ∧
        e.isEndOfInput = true) ↔ IsCompletable level operators file finish tokens := by
  have ordinary : Grammar.IsOrdinary { level, operators } := ⟨rfl, loosest⟩
  have all := lexed.isLexed
  unfold IsCompletable
  rw [parse_repl_endOfInput, parse_repl_ok, ofTokens_body file all final]
  generalize same : TokenStream.mk tokens finish final none = s
  have pending : s.pending = tokens := by rw [← same]
  have longer {more : List Token} (source : Lexed level more) :
      TokenStream.ofTokens file (tokens ++ more ++ [finish]) = s.extend more := by
    rw [ofTokens_body file (all.append source.isLexed) final, ← same]
    rfl
  rw [← pending] at all
  rw [Grammar.single_endOfInput_iff ordinary all]
  refine and_congr_right fun _ => ⟨?_, ?_⟩
  · rintro ⟨more, lexed', accepted⟩
    obtain ⟨written, source, spelled⟩ := exists_lexed lexed'
    refine ⟨written, source, (parse_repl_ok _ _ _ _).mpr ?_⟩
    rw [longer source]
    exact Grammar.single_ok_written all lexed' spelled accepted
  · rintro ⟨more, source, accepted⟩
    refine ⟨more, source.isLexed, ?_⟩
    rw [parse_repl_ok, longer source] at accepted
    exact accepted

/-- A session asks for more input exactly if reading stops for want of tokens. -/
theorem parseStatement_needMoreInput (s : Session) {text : String}
    (run : tokenize s.env.options.level s.sourceName text = .ok tokens) :
    (s.parseStatement text).1 = .needMoreInput ↔
      ∃ e, (parse s.env.options.level s.env.operators .repl s.sourceName tokens).1 = .error e ∧
        e.isEndOfInput = true := by
  unfold Session.parseStatement Session.syntaxTree
  rw [run]
  dsimp only
  cases (parse s.env.options.level s.env.operators .repl s.sourceName tokens).1 with
  | ok tree =>
    dsimp only
    split <;> simp
  | error e =>
    dsimp only
    split <;> simp_all

/-- Reading stops for want of tokens exactly if the tokens are not accepted and those
of some source complete them to a statement that is. So a session asks for more
input after such a text and after no other. -/
theorem endOfInput_iff_completable
    (loosest : ∀ c op, operators.infixOp? c = some op → 0 ≤ op.precedence)
    (lexed : Lexed level tokens) (final : finish.kind = .endOfInput) (file : String) :
    ((∃ e, (parse level operators .repl file (tokens ++ [finish])).1 = .error e ∧
        e.isEndOfInput = true) ↔ IsCompletable level operators file finish tokens) ∧
      ∀ (s : Session) (text : String), s.env.options.level = level → s.env.operators = operators →
        s.sourceName = file → tokenize level file text = .ok (tokens ++ [finish]) →
          ((s.parseStatement text).1 = .needMoreInput ↔
            IsCompletable level operators file finish tokens) := by
  have waits := parse_repl_endOfInput_iff loosest lexed final file
  refine ⟨waits, ?_⟩
  rintro s text rfl rfl rfl run
  rw [parseStatement_needMoreInput s run, waits]

/-- A definition that stops behind a keyword can be completed. -/
theorem definition_in_conditional_completable :
    (∀ c op, OperatorTable.empty.infixOp? c = some op → 0 ≤ op.precedence) ∧
      IsCompletable .controlFlow .empty "" (.endAt .null)
        (tokensOf .controlFlow "def f(x y) if x < y then f(1") :=
  ⟨OperatorTable.loosest_empty,
    (endOfInput_iff_completable OperatorTable.loosest_empty (lexed_tokensOf _ _) rfl "").1.mp
      (exists_of_isEndOfInput (by decide +kernel))⟩

end OpenExpr
