import OpenExpr.Proofs.Placement.Introduction
import OpenExpr.Proofs.Placement.Source
import OpenExpr.Proofs.Registry.Statement

namespace OpenExpr

open Parse

namespace Grammar

theorem headerOperator?_alike {s s' : TokenStream} (alike : s.Alike s') :
    headerOperator? s = headerOperator? s' := by
  have agree := blind_prototype s s' alike
  unfold headerOperator?
  cases run : prototype s <;> cases run' : prototype s' <;> rw [run, run'] at agree
  · exact agree.1.2
  · exact agree.elim
  · exact agree.elim

/-- The operator of a header is the same wherever the header stands. -/
theorem introduced?_alike {s s' : TokenStream} (alike : s.Alike s') : introduced? s = introduced? s' := by
  unfold introduced?
  rw [← alike.current.kind, headerOperator?_alike alike.advance]

end Grammar

/-- A statement that is read by itself: its unit or an error, and the operators that are
known then. -/
inductive ReadAlike (operators : OperatorTable) : Except InputError SyntaxTree × OperatorTable →
    Except InputError SyntaxTree × OperatorTable → Prop
  | failed {e e' table} : e.cause = e'.cause → operators.Within table →
      ReadAlike operators (.error e, table) (.error e', table)
  | read {t t' span span' table} : t.Alike t' → t.IsUnit → table.AdmitsUnit t →
      operators.Within table →
      ReadAlike operators (.ok { kind := .repl, span, children := [t] }, table)
        (.ok { kind := .repl, span := span', children := [t'] }, table)

theorem parse_repl_ok_of_single {level : Level} {operators : OperatorTable} {file : String}
    {tokens : List Token} {a : SyntaxTree × Option OperatorDefinition} {s : TokenStream}
    (run : Grammar.single { level, operators } (.ofTokens file tokens) = .ok a s) :
    parse level operators .repl file tokens =
      (.ok a.1, (Grammar.introduce { level, operators } a.2).operators) := by
  unfold parse
  dsimp only
  rw [ParseUnit.single_follows.ok (r := .ofTokens { level, operators } file tokens) run]
  rfl

/-- A statement is read alike wherever it stands. -/
theorem parse_repl_alike {level : Level} (operators : OperatorTable) {file file' : String}
    {tokens tokens' : List Token} (lexed : AllLexed level (TokenStream.ofTokens file tokens).pending)
    (alike : (TokenStream.ofTokens file tokens).Alike (.ofTokens file' tokens')) :
    ReadAlike operators (parse level operators .repl file tokens)
      (parse level operators .repl file' tokens') := by
  let g : Grammar := { level, operators }
  have agree := g.blind_single _ _ alike
  have forms := g.yields_single_of_statement (g.yields_statement.and g.yields_unitIntroduction) _ lexed
  cases run : g.single (.ofTokens file tokens) <;> cases run' : g.single (.ofTokens file' tokens') <;>
    rw [run, run'] at agree
  case ok.error => exact agree.elim
  case error.ok => exact agree.elim
  case ok.ok a s a' s' =>
    obtain ⟨tree', op'⟩ := a'
    rw [run] at forms
    obtain ⟨⟨unit, span, ⟨form, introduces⟩, same⟩, _⟩ := forms
    obtain ⟨⟨trees, rfl⟩, _⟩ := agree
    rw [parse_repl_ok_of_single run, parse_repl_ok_of_single run']
    rw [same] at trees ⊢
    cases trees with
    | node _ children operators =>
      cases operators
      cases children with
      | cons first rest =>
        cases rest
        exact .read first form (g.admitsUnit_introduce form first introduces) (g.within_introduce _)
  case error.error e s e' s' =>
    have result (file : String) (tokens : List Token) (e : InputError) (s : TokenStream)
        (run : g.single (.ofTokens file tokens) = .error e s) :
        parse level operators .repl file tokens =
          (.error e, (g.introduce (Grammar.introduced? (.ofTokens file tokens))).operators) := by
      refine Prod.ext ?_ (parse_repl_operators level operators file tokens)
      rw [parse_repl, run]
    rw [result _ _ _ _ run, result _ _ _ _ run', ← Grammar.introduced?_alike alike]
    exact .failed agree.1 (g.within_introduce _)

/-- The sessions know the same but for the places where it was written. -/
structure Session.Alike (s s' : Session) : Prop where
  env : s.env.Alike s'.env
  operators : s.env.operators = s'.env.operators

/-- The same came of two statements but for the places. -/
inductive StatementResult.Alike : StatementResult → StatementResult → Prop
  | complete {u u'} : u.display = u'.display → Alike (.complete u) (.complete u')
  | failed {ds ds'} : Alike (.failed ds) (.failed ds')
  | needMoreInput : Alike .needMoreInput .needMoreInput

theorem Environment.Step.result_eq {env env' : Environment} {t : SyntaxTree} {u : Program}
    (step : env.Step t u env') :
    u.result = if u.isError then .failed u.errors else .complete u := by
  cases step with
  | refused => rfl
  | bareRefused => rfl
  | declared => rfl
  | defined _ _ _ sound => simp [Program.result, Program.errors, Program.isError, sound]
  | bare _ _ _ sound => simp [Program.result, Program.errors, Program.isError, sound]

theorem Program.Alike.result_eq {u u' : Program} (alike : u.Alike u') :
    u'.result = if u'.isError then .failed u'.errors else .complete u' := by
  cases alike with
  | refused => rfl
  | declared => rfl
  | defined _ sound => simp [Program.result, Program.errors, Program.isError, sound]

/-- Operators may become known in both environments. -/
theorem Environment.Alike.withOperators {env env' : Environment} (alike : env.Alike env')
    {t t' : OperatorTable} (within : env.operators.Within t) (within' : env'.operators.Within t') :
    Environment.Alike { env with operators := t } { env' with operators := t' } where
  options := alike.options
  anonymousCount := alike.anonymousCount
  declarations := alike.declarations
  definitions := alike.definitions
  admitted name known :=
    ⟨(alike.admitted name known).1.mono within, (alike.admitted name known).2.mono within'⟩

theorem Session.syntaxTree_of_tokens {s : Session} {text : String} {tokens : List Token}
    {read : Except InputError SyntaxTree} {table : OperatorTable}
    (run : tokenize s.env.options.level s.sourceName text = .ok tokens)
    (parsed : OpenExpr.parse s.env.options.level s.env.operators .repl s.sourceName tokens =
      (read, table)) :
    s.syntaxTree .repl text = (read, { s with env := { s.env with operators := table } }) := by
  unfold syntaxTree
  rw [run]
  dsimp only
  rw [parsed]

theorem Session.syntaxTree_of_stray {s : Session} {text : String} {e : InputError}
    (run : tokenize s.env.options.level s.sourceName text = .error e) :
    s.syntaxTree .repl text = (.error e, s) := by
  unfold syntaxTree
  rw [run]

theorem StatementResult.Alike.of_causes {e e' : InputError} (same : e.cause = e'.cause) :
    StatementResult.Alike (if e.isEndOfInput then .needMoreInput else .failed [e.diagnostic])
      (if e'.isEndOfInput then .needMoreInput else .failed [e'.diagnostic]) := by
  unfold InputError.isEndOfInput
  rw [same]
  split
  · exact .needMoreInput
  · exact .failed

/-- Texts that are read alike do the same to sessions that are alike. -/
theorem Session.parseStatement_alike {s s' : Session} (alike : s.Alike s') {a b : String}
    (same : Lexeme.SameReading a.toList b.toList) :
    (s.parseStatement a).1.Alike (s'.parseStatement b).1 ∧
      (s.parseStatement a).2.Alike (s'.parseStatement b).2 := by
  rcases tokenize_alike same s.env.options.level s.sourceName s'.sourceName with
    ⟨ts, ts', run, run', streams⟩ | ⟨e, e', run, run', cause⟩
  · have read := parse_repl_alike s.env.operators (allLexed_ofTokens run) streams
    generalize parsed : OpenExpr.parse s.env.options.level s.env.operators .repl s.sourceName ts = x
      at read
    generalize parsed' : OpenExpr.parse s.env.options.level s.env.operators .repl s'.sourceName ts' = y
      at read
    rw [alike.env.options] at run' parsed'
    rw [alike.operators] at parsed'
    cases read with
    | @failed e e' table cause within =>
      rw [parseStatement_of_error (syntaxTree_of_tokens run parsed),
        parseStatement_of_error (syntaxTree_of_tokens run' parsed')]
      exact ⟨.of_causes cause, alike.env.withOperators within (alike.operators ▸ within), rfl⟩
    | @read t t' span span' table trees form admits within =>
      rw [parseStatement_of_ok (syntaxTree_of_tokens run parsed),
        parseStatement_of_ok (syntaxTree_of_tokens run' parsed')]
      have idle : Resolver.Idle table table { env := { s.env with operators := table } }
          { env := { s'.env with operators := table } } :=
        ⟨alike.env.withOperators within (alike.operators ▸ within), Body.idle_empty, rfl, rfl⟩
      have units := Resolver.unit_alike trees form idle admits admits
      have resolved := Resolver.resolved_unit (r := { env := { s.env with operators := table } }) form
        Scopes.sees_empty
      refine ⟨?_, units.2.env, units.2.operators.trans units.2.operators'.symm⟩
      have result := resolved.step.result_eq
      have result' := units.1.result_eq
      change (Resolver.unit _ t).1.result.Alike (Resolver.unit _ t').1.result
      rw [result, result', ← units.1.isError]
      split
      · exact .failed
      · exact .complete (units.1.display (Bool.eq_false_iff.mpr ‹_›))
  · rw [parseStatement_of_error (syntaxTree_of_stray run),
      parseStatement_of_error (syntaxTree_of_stray (alike.env.options ▸ run'))]
    exact ⟨.of_causes cause, alike⟩

end OpenExpr
