import OpenExpr.Proofs.Registry.Operators
import OpenExpr.Proofs.Scoping.Statement

namespace OpenExpr

namespace Session

/-- The header of an operator was read to its end in the text. -/
def ReadsHeader (s : Session) (text : String) (op : OperatorDefinition) : Prop :=
  ∃ tokens finish, tokenize s.env.options.level s.sourceName text = .ok (tokens ++ [finish]) ∧
    HasIntroduction op tokens

/-- The statement that a text is read as. -/
def statementOf? (s : Session) (text : String) : Option SyntaxTree :=
  match (s.syntaxTree .repl text).1 with
  | .ok tree => tree.children.head?
  | .error _ => none

/-- Reading a text changes nothing but the operators, and of those at most one, whose
header was read. -/
theorem syntaxTree_repl (s : Session) (text : String) :
    ∃ operators, (s.syntaxTree .repl text).2 = { s with env := { s.env with operators } } ∧
      (operators = s.env.operators ∨ ∃ op, s.ReadsHeader text op ∧
        operators = s.env.operators.register op.symbol op.fixity op.precedence) := by
  unfold syntaxTree ReadsHeader
  cases run : tokenize s.env.options.level s.sourceName text with
  | error e => exact ⟨s.env.operators, rfl, .inl rfl⟩
  | ok tokens =>
    refine ⟨_, rfl, ?_⟩
    rw [parse_repl_operators]
    obtain ⟨body, finish, rfl, final, lexed⟩ := tokenize_ok run
    rw [ofTokens_body s.sourceName lexed final]
    generalize same : TokenStream.mk body finish final none = stream
    have pending : stream.pending = body := by rw [← same]
    cases found : Grammar.introduced? stream with
    | none => exact .inl rfl
    | some op =>
      have introduction := Grammar.hasIntroduction_of_introduced? (pending ▸ lexed) found
      exact .inr ⟨op, ⟨body, finish, rfl, pending ▸ introduction⟩, rfl⟩

end Session

/-- What a statement that succeeds changes in the registries: the entry of its own
name in both, or for a bare expression in the definitions alone. -/
def Environment.Registers (env env' : Environment) (t : SyntaxTree) : Program → Prop
  | .prototype p => p.name = env.nameOf t ∧
      env'.declarations = env.declarations.insert p.name p ∧ env'.definitions = env.definitions
  | .definition d => d.name = env.nameOf t ∧
      env'.definitions = env.definitions.insert d.name d ∧
      env'.declarations = if t.kind = .topLevelExpression then env.declarations
        else env.declarations.insert d.name d.signature
  | _ => False

/-- What becomes of a statement, by the diagnostics in it. -/
def Program.result (u : Program) : StatementResult :=
  if u.errors.isEmpty then .complete u else .failed u.errors

namespace Environment.Step

variable {env env' : Environment} {t : SyntaxTree} {u : Program}

theorem options (step : env.Step t u env') : env'.options = env.options := by
  cases step <;> rfl

theorem operators (step : env.Step t u env') : env'.operators = env.operators := by
  cases step <;> rfl

theorem anonymousCount (step : env.Step t u env') : env'.anonymousCount =
    if t.kind = .topLevelExpression then env.anonymousCount + 1 else env.anonymousCount := by
  cases step with
  | refused other => rw [if_neg other]
  | declared kind => rw [kind]; rfl
  | defined kind => rw [kind]; rfl
  | bareRefused kind => rw [kind]; rfl
  | bare kind => rw [kind]; rfl

/-- A statement that fails leaves the registries as they were. -/
theorem registers (step : env.Step t u env') :
    (∃ ds, u.result = .failed ds ∧ env'.declarations = env.declarations ∧
      env'.definitions = env.definitions) ∨
    u.result = .complete u ∧ env.Registers env' t u := by
  cases step with
  | refused other => exact .inl ⟨_, rfl, rfl, rfl⟩
  | bareRefused kind => exact .inl ⟨_, rfl, rfl, rfl⟩
  | declared kind name => exact .inr ⟨rfl, name, rfl, rfl⟩
  | defined kind name _ sound _ =>
    exact .inr ⟨by simp [Program.result, Program.errors, sound], name, rfl, by rw [kind]; rfl⟩
  | bare kind name _ sound =>
    exact .inr ⟨by simp [Program.result, Program.errors, sound], name, rfl, by rw [kind]; rfl⟩

end Environment.Step

theorem Session.parseStatement_of_error {s s' : Session} {text : String} {e : InputError}
    (read : s.syntaxTree .repl text = (.error e, s')) : s.parseStatement text =
      (if e.isEndOfInput then .needMoreInput else .failed [e.diagnostic], s') := by
  unfold parseStatement
  rw [read]

/-- A statement that was read is resolved where nothing is in scope. -/
theorem Session.resolve_of_repl {s s' : Session} {text : String} {tree : SyntaxTree}
    (read : s.syntaxTree .repl text = (.ok tree, s')) :
    ∃ t u env, tree.children = [t] ∧ s'.env.Step t u env ∧ s'.resolve tree = (u, { s' with env }) := by
  have form := s.isRead_of_syntaxTree (congrArg Prod.fst read)
  cases form with
  | @single span t unit =>
    have resolved := Resolver.resolved_unit (r := { env := s'.env }) unit Scopes.sees_empty
    exact ⟨t, _, _, rfl, resolved.step, rfl⟩

theorem Session.parseStatement_of_ok {s s' : Session} {text : String} {tree : SyntaxTree}
    (read : s.syntaxTree .repl text = (.ok tree, s')) : s.parseStatement text =
      ((s'.resolve tree).1.result, (s'.resolve tree).2) := by
  unfold parseStatement
  rw [read]
  rfl

/-- Whatever comes of a statement, the operators change at most by the one whose header
was read, a bare expression and nothing else is counted, and the registries change only
if it succeeds, and then only at the name that it declares or defines. -/
theorem parseStatement_changes (s : Session) (text : String) :
    (s.parseStatement text).2.sourceName = s.sourceName ∧
    (s.parseStatement text).2.env.options = s.env.options ∧
    ((s.parseStatement text).2.env.operators = s.env.operators ∨
      ∃ op, s.ReadsHeader text op ∧ (s.parseStatement text).2.env.operators =
        s.env.operators.register op.symbol op.fixity op.precedence) ∧
    ((s.parseStatement text).2.env.anonymousCount =
      if (s.statementOf? text).map SyntaxTree.kind = some .topLevelExpression
      then s.env.anonymousCount + 1 else s.env.anonymousCount) ∧
    match (s.parseStatement text).1 with
    | .failed _ | .needMoreInput =>
      (s.parseStatement text).2.env.declarations = s.env.declarations ∧
        (s.parseStatement text).2.env.definitions = s.env.definitions
    | .complete u => ∃ t, s.statementOf? text = some t ∧
        s.env.Registers (s.parseStatement text).2.env t u := by
  obtain ⟨operators, after, known⟩ := s.syntaxTree_repl text
  cases result : (s.syntaxTree .repl text).1 with
  | error e =>
    have read : s.syntaxTree .repl text =
        (.error e, { s with env := { s.env with operators } }) := Prod.ext result after
    have statement : s.statementOf? text = none := by
      unfold Session.statementOf?
      rw [result]
    rw [Session.parseStatement_of_error read, statement]
    refine ⟨rfl, rfl, known, rfl, ?_⟩
    cases e.isEndOfInput <;> exact ⟨rfl, rfl⟩
  | ok tree =>
    have read : s.syntaxTree .repl text =
        (.ok tree, { s with env := { s.env with operators } }) := Prod.ext result after
    obtain ⟨t, u, env, children, step, resolved⟩ := Session.resolve_of_repl read
    have statement : s.statementOf? text = some t := by
      unfold Session.statementOf?
      rw [result]
      simp [children]
    rw [Session.parseStatement_of_ok read, resolved, statement]
    refine ⟨rfl, step.options, ?_, ?_, ?_⟩
    · rw [step.operators]
      exact known
    · simpa using step.anonymousCount
    · rcases step.registers with ⟨ds, failed, kept⟩ | ⟨complete, registers⟩
      · rw [failed]
        exact kept
      · rw [complete]
        exact ⟨t, rfl, registers⟩

end OpenExpr
