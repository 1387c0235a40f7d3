import OpenExpr.Proofs.Registry.Statement

namespace OpenExpr

/-- The definition of the function `f` that a unit is, if it is one. -/
def Program.defines? (f : String) : Program → Option FunctionDefinition
  | .definition d => if d.isAnonymous = false ∧ d.name = f then some d else none
  | _ => none

/-- The last definition of the function `f` among the units. -/
def Program.lastDefinition? (f : String) (us : List Program) : Option FunctionDefinition :=
  (us.filterMap (Program.defines? f)).getLast?

/-- What a session can be asked to do with a text. -/
inductive Session.Command where
  | expression (text : String)
  | statement (text : String)
  | source (text : String)

namespace Session

/-- Carries out a command. A statement that fails has no unit. -/
def perform (s : Session) : Command → List Program × Session
  | .expression text => ([(s.parse text).1], (s.parse text).2)
  | .statement text =>
    match s.parseStatement text with
    | (.complete u, s) => ([u], s)
    | (_, s) => ([], s)
  | .source text =>
    match s.parseSource text with
    | (.root us _, s) => (us, s)
    | (u, s) => ([u], s)

/-- Carries out commands one after the other. -/
def run (s : Session) : List Command → List Program × Session
  | [] => ([], s)
  | c :: cs => ((s.perform c).1 ++ ((s.perform c).2.run cs).1, ((s.perform c).2.run cs).2)

end Session

/-- The entry of `f` has come about by the definitions of `f` among the units. Where a
function may not be defined twice there are none if there was an entry before. -/
structure Environment.Records (f : String) (env : Environment) (us : List Program)
    (env' : Environment) : Prop where
  options : env'.options = env.options
  entry : env'.definitions[f]? = (Program.lastDefinition? f us).or env.definitions[f]?
  once : env.options.isStrict = true → f ∈ env.definitions → us.filterMap (Program.defines? f) = []

namespace Environment.Records

variable {f : String} {env env' env'' : Environment} {us vs : List Program}

theorem of_eq (options : env'.options = env.options) (same : env'.definitions = env.definitions)
    (none : us.filterMap (Program.defines? f) = []) : env.Records f us env' where
  options := options
  entry := by rw [same, Program.lastDefinition?, none]; rfl
  once _ _ := none

theorem trans (first : env.Records f us env') (second : env'.Records f vs env'') :
    env.Records f (us ++ vs) env'' where
  options := second.options.trans first.options
  entry := by
    rw [second.entry, first.entry, ← Option.or_assoc]
    congr 1
    simp [Program.lastDefinition?, List.filterMap_append, List.getLast?_append]
  once strict known := by
    have before := first.once strict known
    have still : f ∈ env'.definitions := by
      rw [← Std.ExtTreeMap.isSome_getElem?_iff_mem, first.entry, Program.lastDefinition?, before]
      simpa using known
    rw [List.filterMap_append, before, second.once (first.options ▸ strict) still]
    rfl

end Environment.Records

/-- The name is none that bare expressions get. -/
def Options.Spares (options : Options) (f : String) : Prop :=
  ∀ n : Nat, f ≠ options.anonymousName ++ toString n

namespace Environment.Step

variable {f : String} {env env' : Environment} {t : SyntaxTree} {u : Program}

theorem records (step : env.Step t u env') (spared : env.options.Spares f) :
    env.Records f [u] env' := by
  cases step with
  | refused other => exact .of_eq rfl rfl rfl
  | bareRefused kind => exact .of_eq rfl rfl rfl
  | declared kind name => exact .of_eq rfl rfl rfl
  | @defined d kind name named sound once =>
    by_cases here : d.name = f
    · refine ⟨rfl, ?_, fun strict known => absurd (here ▸ known) (once strict)⟩
      simp [Environment.define, Program.lastDefinition?, Program.defines?, named, here]
    · have other : Program.defines? f (.definition d) = none := by
        simp [Program.defines?, here]
      refine ⟨rfl, ?_, fun _ _ => by simp [other]⟩
      simp [Environment.define, Environment.declare, Program.lastDefinition?, other,
        Std.ExtTreeMap.getElem?_insert, here]
  | @bare d kind name anonymous sound =>
    have other : Program.defines? f (.definition d) = none := by
      simp [Program.defines?, anonymous]
    have different : d.name ≠ f := by
      rw [name, nameOf, kind]
      exact fun same => spared _ same.symm
    refine ⟨rfl, ?_, fun _ _ => by simp [other]⟩
    simp [Environment.define, Environment.countAnonymous, Program.lastDefinition?, other,
      Std.ExtTreeMap.getElem?_insert, different]

end Environment.Step

/-- Units that are resolved one after the other are recorded one after the other. -/
theorem Resolver.records_units {f : String} {r : Resolver} {ts : List SyntaxTree}
    (forms : ∀ t ∈ ts, t.IsUnit ∨ t.kind = .error) (idle : r.body.scopes.Sees [])
    (spared : r.env.options.Spares f) : r.env.Records f (r.units ts).1 (r.units ts).2.env := by
  induction ts generalizing r with
  | nil => exact .of_eq rfl rfl rfl
  | cons t ts ih =>
    have others := fun u member => forms u (List.mem_cons_of_mem t member)
    unfold units
    rcases forms t List.mem_cons_self with form | error
    · have resolved := resolved_unit form idle
      have first := resolved.step.records spared
      exact first.trans (ih others resolved.scopes (first.options ▸ spared))
    · rw [unit_of_error error]
      have none : r.env.Records f [.error t.misplaced] r.env := .of_eq rfl rfl rfl
      exact none.trans (ih others idle spared)

namespace Session

variable {f : String}

theorem syntaxTree_eq (s : Session) (mode : ParseMode) (text : String) :
    ∃ operators, s.syntaxTree mode text =
      ((s.syntaxTree mode text).1, { s with env := { s.env with operators } }) := by
  unfold syntaxTree
  cases tokenize s.env.options.level s.sourceName text with
  | error e => exact ⟨s.env.operators, rfl⟩
  | ok tokens => exact ⟨_, rfl⟩

/-- Operators have no part in what is recorded. -/
theorem records_of_step {env env' : Environment} {operators : OperatorTable} {t : SyntaxTree}
    {u : Program} (step : Environment.Step { env with operators } t u env')
    (spared : env.options.Spares f) : env.Records f [u] env' :=
  have unread : env.Records f [] { env with operators } := .of_eq rfl rfl rfl
  unread.trans (step.records spared)

theorem records_expression (s : Session) (spared : s.env.options.Spares f) (text : String) :
    s.env.Records f (s.perform (.expression text)).1 (s.perform (.expression text)).2.env := by
  obtain ⟨operators, read⟩ := s.syntaxTree_eq .repl text
  unfold perform parse
  dsimp only
  cases result : (s.syntaxTree .repl text).1 with
  | error e =>
    rw [result] at read
    rw [read]
    refine .of_eq rfl rfl ?_
    dsimp only
    cases e.isEndOfInput <;> rfl
  | ok tree =>
    rw [result] at read
    obtain ⟨t, u, env, _, step, resolved⟩ := resolve_of_repl read
    rw [read]
    dsimp only
    rw [resolved]
    exact records_of_step step spared

theorem records_statement (s : Session) (spared : s.env.options.Spares f) (text : String) :
    s.env.Records f (s.perform (.statement text)).1 (s.perform (.statement text)).2.env := by
  obtain ⟨operators, read⟩ := s.syntaxTree_eq .repl text
  unfold perform
  dsimp only
  cases result : (s.syntaxTree .repl text).1 with
  | error e =>
    rw [result] at read
    rw [parseStatement_of_error read]
    cases e.isEndOfInput <;> exact .of_eq rfl rfl rfl
  | ok tree =>
    rw [result] at read
    obtain ⟨t, u, env, _, step, resolved⟩ := resolve_of_repl read
    rw [parseStatement_of_ok read, resolved]
    rcases step.registers with ⟨ds, failed, _, kept⟩ | ⟨complete, _⟩
    · rw [failed]
      exact .of_eq step.options kept rfl
    · rw [complete]
      exact records_of_step step spared

theorem records_source (s : Session) (spared : s.env.options.Spares f) (text : String) :
    s.env.Records f (s.perform (.source text)).1 (s.perform (.source text)).2.env := by
  obtain ⟨operators, read⟩ := s.syntaxTree_eq .fullSource text
  unfold perform parseSource
  dsimp only
  cases result : (s.syntaxTree .fullSource text).1 with
  | error e =>
    rw [result] at read
    rw [read]
    exact .of_eq rfl rfl rfl
  | ok tree =>
    have form := s.isRead_of_syntaxTree result
    rw [result] at read
    rw [read]
    cases form with
    | @source span units forms =>
      have unread : s.env.Records f [] { s.env with operators } := .of_eq rfl rfl rfl
      exact unread.trans (Resolver.records_units (r := { env := { s.env with operators } }) forms
        Scopes.sees_empty spared)

theorem records_perform (s : Session) (spared : s.env.options.Spares f) (c : Command) :
    s.env.Records f (s.perform c).1 (s.perform c).2.env := by
  cases c with
  | expression text => exact s.records_expression spared text
  | statement text => exact s.records_statement spared text
  | source text => exact s.records_source spared text

theorem records_run (s : Session) (spared : s.env.options.Spares f) (cs : List Command) :
    s.env.Records f (s.run cs).1 (s.run cs).2.env := by
  induction cs generalizing s with
  | nil => exact .of_eq rfl rfl rfl
  | cons c cs ih =>
    have first := s.records_perform spared c
    exact first.trans (ih (s.perform c).2 (first.options ▸ spared))

end Session

/-- Whatever a session is asked to do, the definition of a function changes only when the
function is defined again, and not even then where that is an error. This holds of every
name but those that bare expressions get. -/
theorem definition_changes_by_definition (s : Session) (cs : List Session.Command) {f : String}
    (spared : s.env.options.Spares f) :
    (s.run cs).2.env.definitions[f]? =
        (Program.lastDefinition? f (s.run cs).1).or s.env.definitions[f]? ∧
      (s.env.options.isStrict = true → f ∈ s.env.definitions →
        (s.run cs).2.env.definitions[f]? = s.env.definitions[f]?) := by
  have records := s.records_run spared cs
  refine ⟨records.entry, fun strict known => ?_⟩
  rw [records.entry, Program.lastDefinition?, records.once strict known]
  rfl

theorem Options.spares_of_head {options : Options} {f : String} {c c' : Char} {cs cs' : List Char}
    (name : options.anonymousName.toList = c :: cs) (other : f.toList = c' :: cs') (ne : c' ≠ c) :
    options.Spares f := by
  intro n same
  rw [same, String.toList_append, name, List.cons_append] at other
  exact ne (List.cons.inj other).1.symm

/-- Bare expressions and refused definitions leave the first definition where it is. -/
theorem definition_survives_redefinition :
    let s := ((Session.new { isStrict := true }).run [.statement "def f(x) x;"]).2
    let cs : List Session.Command := [.expression "f(2)", .source "def f(x) f(x) + 1; f(3);"]
    s.env.options.Spares "f" ∧ s.env.options.isStrict = true ∧ "f" ∈ s.env.definitions ∧
      (s.run cs).2.env.definitions["f"]? =
        (Program.lastDefinition? "f" (s.run cs).1).or s.env.definitions["f"]? ∧
      (s.run cs).2.env.definitions["f"]? = s.env.definitions["f"]? := by
  intro s cs
  have strict : s.env.options = { isStrict := true } := by decide +kernel
  have known : s.env.definitions.contains "f" = true := by decide +kernel
  have spared : s.env.options.Spares "f" :=
    strict ▸ Options.spares_of_head (by rfl) (by rfl) (by decide)
  have kept := definition_changes_by_definition s cs spared
  exact ⟨spared, strict ▸ rfl, known, kept.1, kept.2 (strict ▸ rfl) known⟩

/-- A function may have the name that the next bare expression gets. That then takes its
place, without a definition and even where a function may not be defined twice. -/
theorem bare_expression_replaces_definition :
    let s := ((Session.new { isStrict := true }).run [.statement "def anon_expr_0() 1;"]).2
    s.env.options.isStrict = true ∧
      s.env.definitions["anon_expr_0"]?.map FunctionDefinition.isAnonymous = some false ∧
      (Program.lastDefinition? "anon_expr_0" (s.run [.statement "2;"]).1).isNone = true ∧
      (s.run [.statement "2;"]).2.env.definitions["anon_expr_0"]?.map
        FunctionDefinition.isAnonymous = some true := by
  decide +kernel

end OpenExpr
