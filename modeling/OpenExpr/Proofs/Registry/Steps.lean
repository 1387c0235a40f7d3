import OpenExpr.Proofs.Meaning.Source
import OpenExpr.Proofs.Registry.Headers
import OpenExpr.Proofs.RelatedLists

namespace OpenExpr

namespace Environment

/-- What resolving a statement of a text can do: what it changes, what the statement means,
what its variables stand for, and that its header was accepted if anything came of it. -/
structure Resolves (env : Environment) (t : SyntaxTree) (u : Program) (env' : Environment) : Prop where
  source : t.IsSource env.operators
  step : env.Step t u env'
  meaning : env.Means t u
  references : u.isError = false → u.references = t.bodyUses.filterMap Use.target?
  accepted : u.isError = false → env.Accepts t

/-- The units of a text are resolved one after the other. One that stands for input that
could not be read becomes an error and changes nothing. -/
inductive Steps : Environment → List SyntaxTree → List Program → Environment → Prop
  | nil {env} : Steps env [] [] env
  | unit {env t u env' ts us env''} : env.Resolves t u env' → Steps env' ts us env'' →
      Steps env (t :: ts) (u :: us) env''
  | unreadable {env t ts us env'} : t.kind = .error → Steps env ts us env' →
      Steps env (t :: ts) (.error t.misplaced :: us) env'

namespace Steps

variable {env env' : Environment} {ts : List SyntaxTree} {us : List Program}

/-- What no statement destroys is there after all of them, and each is resolved where it
is there. -/
theorem invariant {P : Environment → Prop} (steps : env.Steps ts us env')
    (step : ∀ {env t u env'}, env.Resolves t u env' → P env → P env') (start : P env) :
    P env' ∧ List.Forall₂ (fun t u => t.kind = .error ∧ u = .error t.misplaced ∨
      ∃ env env', P env ∧ env.Resolves t u env') ts us := by
  induction steps with
  | nil => exact ⟨start, .nil⟩
  | unit first _ ih =>
    obtain ⟨finish, others⟩ := ih (step first start)
    exact ⟨finish, .cons (.inr ⟨_, _, start, first⟩) others⟩
  | unreadable error _ ih =>
    obtain ⟨finish, others⟩ := ih start
    exact ⟨finish, .cons (.inl ⟨error, rfl⟩) others⟩

/-- A definition comes of a statement that is resolved where what no statement destroys is
there. -/
theorem exists_of_definition {P : Environment → Prop} (steps : env.Steps ts us env')
    (step : ∀ {env t u env'}, env.Resolves t u env' → P env → P env') (start : P env)
    {d : FunctionDefinition} (member : .definition d ∈ us) :
    ∃ t ∈ ts, ∃ env env', P env ∧ env.Resolves t (.definition d) env' := by
  obtain ⟨t, among, ⟨_, other⟩ | here⟩ := exists_of_forall₂ (steps.invariant step start).2 member
  · cases other
  · exact ⟨t, among, here⟩

theorem options (steps : env.Steps ts us env') : env'.options = env.options :=
  (steps.invariant (P := fun env' => env'.options = env.options)
    (fun resolves same => resolves.step.options.trans same) rfl).1

theorem operators (steps : env.Steps ts us env') : env'.operators = env.operators :=
  (steps.invariant (P := fun env' => env'.operators = env.operators)
    (fun resolves same => resolves.step.operators.trans same) rfl).1

end Steps

end Environment

theorem Resolver.resolves_unit {r : Resolver} {t : SyntaxTree} (source : t.IsSource r.env.operators)
    (idle : r.body.scopes.Sees []) : r.env.Resolves t (r.unit t).1 (r.unit t).2.env := by
  have resolved := resolved_unit source.read.fits.form idle
  exact ⟨source, resolved.step, means_unit source.read.fits.form source.read.body,
    resolved.references, fun good => (resolved.known.mp good).1⟩

theorem Resolver.steps_units {r : Resolver} {ts : List SyntaxTree}
    (forms : ∀ t ∈ ts, t.IsSource r.env.operators ∨ t.kind = .error)
    (idle : r.body.scopes.Sees []) : r.env.Steps ts (r.units ts).1 (r.units ts).2.env := by
  induction ts generalizing r with
  | nil => exact .nil
  | cons t ts ih =>
    obtain ⟨form, others⟩ := List.forall_mem_cons.mp forms
    obtain ⟨kept, later⟩ :=
      operators_unit (form.imp_left fun source => source.read.fits.form) idle
    rw [units_cons]
    rcases form with source | error
    · exact .unit (resolves_unit source idle) (ih (kept ▸ others) later)
    · rw [unit_of_error error] at later ⊢
      exact .unreadable error (ih others later)

/-- The operators whose headers are read in a text, in their order. In a text that does not
consist of tokens none is. -/
inductive ReadsHeaders (level : Level) (file : String) (mode : ParseMode) (text : String) :
    List OperatorDefinition → Prop
  | stray {e} : tokenize level file text = .error e → ReadsHeaders level file mode text []
  | read {tokens finish ops} : tokenize level file text = .ok (tokens ++ [finish]) →
      Introductions (mode.runs tokens) ops → ReadsHeaders level file mode text ops

theorem ReadsHeaders.isDefinable {level : Level} {file : String} {mode : ParseMode} {text : String}
    {ops : List OperatorDefinition} (reads : ReadsHeaders level file mode text ops) :
    ∀ op ∈ ops, op.IsDefinable := by
  cases reads with
  | stray => simp
  | read _ introductions => exact introductions.isDefinable

/-- The units of a program: all those of a source, or what the program is by itself. -/
def Program.units : Program → List Program
  | .root us _ => us
  | u => [u]

theorem Environment.Step.units {env env' : Environment} {t : SyntaxTree} {u : Program}
    (step : env.Step t u env') : u.units = [u] := by
  cases step <;> rfl

namespace Session

/-- How much of its text a command reads. -/
def Command.mode : Command → ParseMode
  | .expression _ | .statement _ => .repl
  | .source _ => .fullSource

def Command.text : Command → String
  | .expression text | .statement text | .source text => text

/-- The units that are read of a text, none if it cannot be read. -/
def unitsRead (s : Session) (mode : ParseMode) (text : String) : List SyntaxTree :=
  match (s.syntaxTree mode text).1 with
  | .ok tree => tree.children
  | .error _ => []

/-- Reading a text registers the operators whose headers it reads, whatever else comes
of it, and changes nothing else. -/
theorem syntaxTree_registers (s : Session) (mode : ParseMode) (text : String) :
    ∃ ops, (∀ other, ReadsHeaders s.env.options.level s.sourceName mode text other ↔ other = ops) ∧
      (s.syntaxTree mode text).2 = s.withOperators (s.env.operators.registerAll ops) := by
  unfold syntaxTree
  cases run : tokenize s.env.options.level s.sourceName text with
  | error e =>
    refine ⟨[], fun other => ⟨fun reads => ?_, fun same => same ▸ .stray run⟩, rfl⟩
    cases reads with
    | stray => rfl
    | read run' => exact absurd (run.symm.trans run') (by simp)
  | ok tokens =>
    obtain ⟨body, finish, rfl, final, lexed⟩ := tokenize_ok run
    let stream : TokenStream := ⟨body, finish, final, none⟩
    have each : ∀ piece ∈ mode.runs body, AllLexed s.env.options.level piece := by
      intro piece member t inPiece
      refine lexed t ?_
      rw [← mode.flatten_runs body]
      exact List.mem_flatten_of_mem member inPiece
    refine ⟨SourceReader.introductions stream (mode.runs body), fun other => ⟨fun reads => ?_, ?_⟩,
      congrArg s.withOperators (parse_operators s.env.operators mode s.sourceName lexed final)⟩
    · cases reads with
      | stray run' => exact absurd (run.symm.trans run') (by simp)
      | read run' introductions =>
        obtain ⟨rfl, _⟩ := List.append_inj' (Except.ok.inj (run.symm.trans run')) rfl
        exact (SourceReader.introductions_iff stream each).mp introductions
    · rintro rfl
      exact .read run ((SourceReader.introductions_iff stream each).mpr rfl)

/-- The units of a tree are resolved one after the other, and those are the units of the
program. -/
theorem resolve_steps {s s' : Session} {mode : ParseMode} {text : String} {tree : SyntaxTree}
    (read : s.syntaxTree mode text = (.ok tree, s')) : ∃ env,
      s'.env.Steps tree.children (s'.resolve tree).1.units env ∧
        (s'.resolve tree).2 = { s' with env } := by
  have forms := isSource_of_syntaxTree read
  have shape := s.isRead_of_syntaxTree (congrArg Prod.fst read)
  cases shape with
  | @single span t unit =>
    have source := (forms t List.mem_cons_self).resolve_right unit.readable
    have resolves := Resolver.resolves_unit (r := { env := s'.env }) source Scopes.sees_empty
    have single : (s'.resolve ⟨.repl, span, "", [t], []⟩).1.units =
        [(Resolver.unit { env := s'.env } t).1] := resolves.step.units
    exact ⟨_, single ▸ .unit resolves .nil, rfl⟩
  | source =>
    exact ⟨_, Resolver.steps_units (r := { env := s'.env }) forms Scopes.sees_empty, rfl⟩

/-- A command makes of a session what resolving the tree of its text makes of it, and it
gives no definitions but those. -/
theorem perform_ok {s s' : Session} {c : Command} {tree : SyntaxTree}
    (read : s.syntaxTree c.mode c.text = (.ok tree, s')) :
    (s.perform c).2 = (s'.resolve tree).2 ∧
      ∀ d, .definition d ∈ (s.perform c).1 → .definition d ∈ (s'.resolve tree).1.units := by
  have whole (u : Program) (d : FunctionDefinition) (same : .definition d ∈ [u]) :
      .definition d ∈ u.units := by
    rw [← List.mem_singleton.mp same]
    exact List.mem_singleton_self _
  cases c with
  | expression text =>
    have parsed : s.parse text = s'.resolve tree := by
      unfold parse
      rw [show s.syntaxTree .repl text = (.ok tree, s') from read]
    change (s.parse text).2 = _ ∧ ∀ d, .definition d ∈ [(s.parse text).1] → _
    rw [parsed]
    exact ⟨rfl, whole _⟩
  | statement text =>
    have parsed := parseStatement_of_ok (show s.syntaxTree .repl text = (.ok tree, s') from read)
    refine ⟨(s.perform_statement_session text).trans (congrArg Prod.snd parsed), fun d => ?_⟩
    unfold perform
    dsimp only
    rw [parsed, Program.result]
    cases (s'.resolve tree).1.errors.isEmpty with
    | true => exact whole _ d
    | false => simp
  | source text =>
    have parsed : s.parseSource text = s'.resolve tree := by
      unfold parseSource
      rw [show s.syntaxTree .fullSource text = (.ok tree, s') from read]
    unfold perform
    dsimp only
    rw [parsed]
    rcases s'.resolve tree with ⟨_ | _ | _ | _ | _, s''⟩ <;> exact ⟨rfl, fun _ => id⟩

theorem perform_error {s s' : Session} {c : Command} {e : InputError}
    (read : s.syntaxTree c.mode c.text = (.error e, s')) :
    (s.perform c).2 = s' ∧ ∀ d, .definition d ∉ (s.perform c).1 := by
  cases c with
  | expression text =>
    change (s.parse text).2 = s' ∧ ∀ d, .definition d ∉ [(s.parse text).1]
    unfold parse
    rw [show s.syntaxTree .repl text = (.error e, s') from read]
    dsimp only
    split <;> simp [canceled]
  | statement text =>
    have parsed := parseStatement_of_error (show s.syntaxTree .repl text = (.error e, s') from read)
    refine ⟨(s.perform_statement_session text).trans (congrArg Prod.snd parsed), fun d => ?_⟩
    unfold perform
    dsimp only
    rw [parsed]
    cases e.isEndOfInput <;> simp
  | source text =>
    unfold perform parseSource
    dsimp only
    rw [show s.syntaxTree .fullSource text = (.error e, s') from read]
    simp

/-- A command registers the operators whose headers it reads, and then resolves the units
that it has read. All definitions that it gives are among these. -/
theorem perform_steps (s : Session) (c : Command) : ∃ ops us env,
    (∀ other, ReadsHeaders s.env.options.level s.sourceName c.mode c.text other ↔ other = ops) ∧
    (s.withOperators (s.env.operators.registerAll ops)).env.Steps (s.unitsRead c.mode c.text) us env ∧
    (s.perform c).2 = { s with env } ∧ ∀ d, .definition d ∈ (s.perform c).1 → .definition d ∈ us := by
  obtain ⟨ops, reads, after⟩ := s.syntaxTree_registers c.mode c.text
  unfold unitsRead
  cases result : (s.syntaxTree c.mode c.text).1 with
  | error e =>
    have read : s.syntaxTree c.mode c.text = (.error e, _) := Prod.ext result after
    obtain ⟨same, none⟩ := perform_error read
    exact ⟨ops, [], _, reads, .nil, same, fun d member => absurd member (none d)⟩
  | ok tree =>
    have read : s.syntaxTree c.mode c.text = (.ok tree, _) := Prod.ext result after
    obtain ⟨env, steps, resolved⟩ := resolve_steps read
    obtain ⟨same, given⟩ := perform_ok read
    exact ⟨ops, _, env, reads, steps, same.trans resolved, given⟩

end Session

end OpenExpr
