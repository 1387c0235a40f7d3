import OpenExpr.Proofs.Scoping.Leftover
import OpenExpr.Proofs.Scoping.Statement

namespace OpenExpr

/-- Nothing is in scope but names that cannot be written, and no scope is open. -/
def Resolver.IsIdle (r : Resolver) : Prop :=
  Scopes.Keeps {} r.body.scopes

/-- Resolution has come to the same in both, whatever was left in the outermost scope before. -/
structure Resolver.Matches (r r' : Resolver) : Prop where
  env : r.env = r'.env
  body : r.body.Matches r'.body
  idle : r.IsIdle

namespace Scopes

variable {s s' : Scopes Binding}

theorem Keeps.sees (keeps : Keeps {} s) : s.Sees [] :=
  sees_empty.of_keeps keeps

theorem Keeps.matches_empty (keeps : Keeps {} s) : s.Matches {} where
  innermost name plain := keeps.innermost name plain
  enclosing := by
    rw [keeps.enclosing]
    exact .nil

end Scopes

namespace ResolveUnit

variable {α β : Type} {r : Resolver}

/-- What comes of the part does not depend on what the statements before left in scope. -/
abbrev Overlooks (p : ResolveUnit α) : Prop :=
  Related Resolver.Matches Eq Eq p p

theorem overlooks_pure (a : α) : Overlooks (pure a) :=
  related_pure rfl

theorem Overlooks.bind {p : ResolveUnit α} {f : α → ResolveUnit β} (first : Overlooks p)
    (next : ∀ a, Overlooks (f a)) : Overlooks (p >>= f) :=
  Related.bind first fun a _ same => same ▸ next a

theorem overlooks_changeEnv (f : Environment → Environment) : Overlooks (changeEnv f) :=
  fun _ _ same => ⟨rfl, congrArg f same.env, same.body, same.idle⟩

theorem overlooks_takeLocals : Overlooks takeLocals := fun _ _ same =>
  ⟨same.body.locals, same.env, ⟨same.body.scopes, rfl, same.body.results⟩, same.idle⟩

theorem Overlooks.onFailure {p : ResolveUnit α} (part : Overlooks p) (undo : Environment → Environment) :
    Overlooks (onFailure undo p) := by
  intro r r' same
  have agree := part r r' same
  unfold ResolveUnit.onFailure
  cases run : p r <;> cases run' : p r' <;> rw [run, run'] at agree
  · exact agree
  · exact agree.elim
  · exact agree.elim
  · exact ⟨agree.1, congrArg undo agree.2.env, agree.2.body, agree.2.idle⟩

/-- A part of a body leaves nothing in scope that can be written. -/
theorem overlooks_inBody {part : Environment → Resolve α} {known : Environment → Prop}
    {P : Environment → α → Prop} (overlooks : ∀ env, Resolve.Overlooks (part env))
    (resolves : ∀ env, Resolve.Resolves [] (known env) (P env) (part env)) :
    Overlooks (inBody part) := by
  intro r r' same
  have agree := overlooks r.env r.body r'.body same.body
  have decided := resolves r.env r.body same.idle.sees
  unfold inBody
  rw [← same.env]
  cases run : part r.env r.body <;> cases run' : part r.env r'.body <;> rw [run, run'] at agree <;>
    rw [run] at decided
  · exact ⟨agree.1, rfl, agree.2, same.idle.trans decided.2⟩
  · exact agree.elim
  · exact agree.elim
  · exact ⟨agree.1, rfl, agree.2, same.idle.trans decided.2⟩

/-- A header that is accepted declares what it writes. -/
theorem overlooks_declare {t : SyntaxTree} (form : isPrototype t = true) (isExternal : Bool) :
    Related Resolver.Matches Eq (fun p p' => p = prototypeOf t isExternal ∧ p = p')
      (declare t isExternal) (declare t isExternal) := by
  intro r r' same
  by_cases accepted : r.env.AcceptsHeader t
  · rw [declare_ok form accepted, declare_ok form (same.env ▸ accepted), same.env]
    exact ⟨⟨rfl, rfl⟩, rfl, same.body, same.idle⟩
  · rw [declare_error form accepted, declare_error form (same.env ▸ accepted)]
    exact ⟨rfl, same⟩

/-- A function starts as in a new resolver. -/
theorem begun_matches (idle : r.IsIdle) : Agree Resolver.Matches Eq Eq (beginFunction r)
    (beginFunction { env := r.env }) :=
  ⟨rfl, rfl, ⟨idle.matches_empty, rfl, rfl⟩, idle⟩

theorem functionDefinition_apart (idle : r.IsIdle) {span : Span} {text : String}
    {header body : SyntaxTree} (form : isPrototype header = true) (isExpr : body.IsExpr) :
    let t : SyntaxTree := { kind := .functionDefinition, span, text, children := [header, body] }
    Agree Resolver.Matches Eq Eq (functionDefinition t r) (functionDefinition t { env := r.env }) := by
  refine (begun_matches idle).bind fun _ _ _ => ?_
  dsimp only
  refine related_get fun s s' same => ?_
  rw [same.env]
  split
  · exact ⟨rfl, same⟩
  refine (overlooks_declare form false).bind (fun p p' declared => ?_) s s' same
  obtain ⟨rfl, rfl⟩ := declared
  have inner : Overlooks (inBody fun env => Resolve.inScope do
      Resolve.bindParameters (prototypeOf header false).parameters
      Resolve.expr env body) :=
    overlooks_inBody (fun env => ((Resolve.overlooks_bindParameters _).bind fun _ =>
      Resolve.overlooks_expr isExpr).inScope) fun env => resolves_body env header isExpr
  exact (inner.onFailure _).bind fun e => overlooks_takeLocals.bind fun ls =>
    (overlooks_changeEnv _).bind fun _ => overlooks_pure _

theorem topLevelExpression_apart (idle : r.IsIdle) {span : Span} {text : String} {body : SyntaxTree}
    (isExpr : body.IsExpr) :
    let t : SyntaxTree := { kind := .topLevelExpression, span, text, children := [body] }
    Agree Resolver.Matches Eq Eq (topLevelExpression t r) (topLevelExpression t { env := r.env }) := by
  refine (begun_matches idle).bind fun _ _ _ => ?_
  refine related_get fun s s' same => ?_
  rw [same.env]
  have inner : Overlooks (inBody fun env => Resolve.expr env body) :=
    overlooks_inBody (fun env => Resolve.overlooks_expr isExpr)
      fun env => (Resolve.isScoped isExpr).resolves []
  refine ((overlooks_changeEnv _).bind fun _ => inner.bind fun e => ?_) s s' same
  exact overlooks_takeLocals.bind fun ls => (overlooks_changeEnv _).bind fun _ => overlooks_pure _

/-- A declaration has no body. -/
theorem externalDeclaration_apart (idle : r.IsIdle) {span : Span} {text : String} {header : SyntaxTree}
    (form : isPrototype header = true) :
    let t : SyntaxTree := { kind := .externalDeclaration, span, text, children := [header] }
    Agree (fun r r' : Resolver => r.env = r'.env ∧ r.IsIdle) Eq Eq (externalDeclaration t r)
      (externalDeclaration t { env := r.env }) := by
  have apart : ({ env := r.env } : Resolver).env = r.env := rfl
  unfold externalDeclaration
  dsimp only
  by_cases accepted : r.env.AcceptsHeader header
  · rw [bind_ok (declare_ok form accepted true), bind_ok (declare_ok form (apart ▸ accepted) true)]
    exact ⟨rfl, rfl, idle⟩
  · rw [bind_error (declare_error form accepted true),
      bind_error (declare_error form (apart ▸ accepted) true)]
    exact ⟨rfl, rfl, idle⟩

end ResolveUnit

namespace Resolver

variable {r : Resolver} {t : SyntaxTree} {ts : List SyntaxTree}

/-- The same becomes of a unit as in a new resolver, and it leaves nothing behind but what it
changes in the environment. -/
theorem unit_apart (form : t.IsUnit ∨ t.kind = .error) (idle : r.IsIdle) :
    (r.unit t).1 = (({ env := r.env } : Resolver).unit t).1 ∧
      (r.unit t).2.env = (({ env := r.env } : Resolver).unit t).2.env ∧ (r.unit t).2.IsIdle := by
  rcases form with form | error
  · have agree : Agree (fun r r' : Resolver => r.env = r'.env ∧ r.IsIdle) Eq Eq
        (ResolveUnit.statement t r) (ResolveUnit.statement t { env := r.env }) := by
      have matching (s s' : Resolver) (same : s.Matches s') : s.env = s'.env ∧ s.IsIdle :=
        ⟨same.env, same.idle⟩
      cases form with
      | definition header body =>
        exact (ResolveUnit.functionDefinition_apart idle header body).weaken matching
      | @declaration span text _ header =>
        exact @ResolveUnit.externalDeclaration_apart r idle span text _ header
      | bare body => exact (ResolveUnit.topLevelExpression_apart idle body).weaken matching
    unfold unit
    cases run : ResolveUnit.statement t r <;>
      cases run' : ResolveUnit.statement t { env := r.env } <;> rw [run, run'] at agree
    · exact agree
    · exact agree.elim
    · exact agree.elim
    · exact ⟨congrArg Program.error agree.1, agree.2⟩
  · rw [unit_of_error error, unit_of_error error]
    exact ⟨rfl, rfl, idle⟩

end Resolver

namespace Environment

/-- Resolves units one after the other, each by itself in what the one before has left. -/
def resolveApart (env : Environment) : List SyntaxTree → List Program × Environment
  | [] => ([], env)
  | t :: ts =>
    let (u, env) := env.resolve t
    let (us, env) := env.resolveApart ts
    (u :: us, env)

variable {env : Environment} {t : SyntaxTree}

theorem resolve_of_unit (form : t.IsUnit ∨ t.kind = .error) :
    env.resolve t = ((({ env } : Resolver).unit t).1, (({ env } : Resolver).unit t).2.env) := by
  unfold resolve
  rcases form with form | error
  · cases form <;> rfl
  · rw [error]

end Environment

theorem Resolver.units_apart {r : Resolver} {ts : List SyntaxTree}
    (forms : ∀ t ∈ ts, t.IsUnit ∨ t.kind = .error) (idle : r.IsIdle) :
    ((r.units ts).1, (r.units ts).2.env) = r.env.resolveApart ts := by
  induction ts generalizing r with
  | nil => rfl
  | cons t ts ih =>
    obtain ⟨form, others⟩ := List.forall_mem_cons.mp forms
    obtain ⟨same, env, still⟩ := unit_apart form idle
    have rest := ih others still
    rw [env] at rest
    rw [Environment.resolveApart, Environment.resolve_of_unit form]
    dsimp only
    rw [← rest, ← same]
    rfl

/-- The units of a source do not see each other: the same becomes of them, and the same is known
in the end, as if each were resolved by itself in what the units before it have left. -/
theorem units_resolved_apart {level : Level} {table : OperatorTable} {file text : String}
    {tokens : List Token} (run : tokenize level file text = .ok tokens) {tree : SyntaxTree}
    (read : (parse level table .fullSource file tokens).1 = .ok tree) (env : Environment) :
    env.resolve tree =
      (.root (env.resolveApart tree.children).1 tree.span, (env.resolveApart tree.children).2) := by
  cases isRead_of_parse run read with
  | source forms =>
    have apart := Resolver.units_apart (r := { env }) forms (.refl _)
    rw [← apart]
    rfl

/-- A bare conditional whose result stays in scope, a definition that fails inside a loop and a
binding, a declaration, a conditional again, and a definition that contradicts the declaration. -/
theorem failing_units_resolved_apart :
    let text := "if 1 then 2 else 3; def f(a) for i = a, i < 2 in var b = i in g(b); extern h(x); " ++
      "if h(1) then 2 else 3; def h(x y) x"
    ∃ tokens tree, tokenize .mutableVariables "units" text = .ok tokens ∧
      (parse .mutableVariables .empty .fullSource "units" tokens).1 = .ok tree ∧
      (Environment.resolveApart {} tree.children).1.map Program.isError =
        [false, true, false, false, true] ∧
      Environment.resolve {} tree = (.root (Environment.resolveApart {} tree.children).1 tree.span,
        (Environment.resolveApart {} tree.children).2) := by
  intro text
  have read (tokens : List Token) : (parse .mutableVariables .empty .fullSource "units" tokens).1 =
      .ok (SourceReader.ofTokens { level := .mutableVariables, operators := .empty } "units"
        tokens).fullSource.1 := rfl
  let tokens := (tokenize .mutableVariables "units" text).toOption.getD []
  have run : tokenize .mutableVariables "units" text = .ok tokens := by decide +kernel
  refine ⟨tokens, _, run, read tokens, by decide +kernel, units_resolved_apart run (read tokens) {}⟩

end OpenExpr
