import OpenExpr.Proofs.Placement.Environment
import OpenExpr.Proofs.Scoping.Statement

namespace OpenExpr

/-- The same became of two statements but for the places: both were refused, or both
make the same function known, with nothing wrong in its body. -/
inductive Program.Alike : Program → Program → Prop
  | refused {d d'} : Alike (.error d) (.error d')
  | declared {p p'} : p.unplaced = p'.unplaced → Alike (.prototype p) (.prototype p')
  | defined {d d'} : d.unplaced = d'.unplaced → d'.body.errors = [] →
      Alike (.definition d) (.definition d')

namespace Program.Alike

variable {u u' : Program}

theorem isError (alike : u.Alike u') : u.isError = u'.isError := by
  cases alike <;> rfl

theorem display (alike : u.Alike u') (accepted : u.isError = false) : u.display = u'.display := by
  cases alike with
  | refused => cases accepted
  | @declared p p' same =>
    change p.display = p'.display
    rw [← p.display_unplaced, same, p'.display_unplaced]
  | @defined d d' same _ =>
    change d.display = d'.display
    rw [← d.display_unplaced, same, d'.display_unplaced]

end Program.Alike

/-- The table admits the name of the function that a statement makes known, if its
header gives it one. -/
def OperatorTable.AdmitsUnit (table : OperatorTable) (t : SyntaxTree) : Prop :=
  t.kind ≠ .topLevelExpression →
    ∀ header ∈ t.children.head?, table.Admits (ResolveUnit.prototypeName header)

/-- Resolution has come to the same but for the places, with these operators known. -/
structure Resolver.Alike (table table' : OperatorTable) (r r' : Resolver) : Prop where
  env : r.env.Alike r'.env
  body : r.body.Alike 1 r'.body
  operators : r.env.operators = table
  operators' : r'.env.operators = table'

/-- The same between two statements. -/
structure Resolver.Idle (table table' : OperatorTable) (r r' : Resolver) : Prop where
  env : r.env.Alike r'.env
  body : r.body.Idle r'.body
  operators : r.env.operators = table
  operators' : r'.env.operators = table'

variable {table table' : OperatorTable}

theorem Resolver.Alike.idle {r r' : Resolver} (alike : r.Alike table table' r') :
    r.Idle table table' r' :=
  ⟨alike.env, alike.body.idle, alike.operators, alike.operators'⟩

namespace ResolveUnit

variable {α α' β β' : Type} {R : α → α' → Prop}

/-- Both resolutions succeed with related values or both fail, and leave the same. -/
abbrev Agrees (table table' : OperatorTable) (R : α → α' → Prop) (p : ResolveUnit α)
    (q : ResolveUnit α') : Prop :=
  Related (Resolver.Alike table table') (fun _ _ => True) R p q

theorem agrees_inBody {part : Environment → Resolve α} {part' : Environment → Resolve α'}
    (each : ∀ env env', env.Alike env' → Resolve.Agrees 1 R (part env) (part' env')) :
    Agrees table table' R (inBody part) (inBody part') := by
  intro r r' alike
  have agree := each _ _ alike.env r.body r'.body alike.body
  unfold inBody
  cases run : part r.env r.body <;> cases run' : part' r'.env r'.body <;> rw [run, run'] at agree
  · exact ⟨agree.1, alike.env, agree.2, alike.operators, alike.operators'⟩
  · exact agree.elim
  · exact agree.elim
  · exact ⟨agree.1, alike.env, agree.2, alike.operators, alike.operators'⟩

theorem agrees_onFailure {undo undo' : Environment → Environment} {part : ResolveUnit α}
    {part' : ResolveUnit α'} (agrees : Agrees table table' R part part')
    (undone : ∀ r r' : Resolver, r.Alike table table' r' → Resolver.Alike table table'
      { r with env := undo r.env } { r' with env := undo' r'.env }) :
    Agrees table table' R (onFailure undo part) (onFailure undo' part') := by
  intro r r' alike
  have agree := agrees r r' alike
  unfold onFailure
  cases run : part r <;> cases run' : part' r' <;> rw [run, run'] at agree
  · exact agree
  · exact agree.elim
  · exact agree.elim
  · exact ⟨trivial, undone _ _ agree.2⟩

theorem unplaced_parameters {ts ts' : List SyntaxTree} (same : SyntaxTree.AllAlike ts ts') (n : Nat) :
    (ts.zipIdx n).map (fun (p, index) => Parameter.unplaced { name := p.text, index, span := p.span }) =
      (ts'.zipIdx n).map fun (p, index) =>
        Parameter.unplaced { name := p.text, index, span := p.span } := by
  induction ts generalizing ts' n with
  | nil =>
    cases same
    rfl
  | cons t ts ih =>
    cases same with
    | cons first rest =>
      cases first
      simp only [List.zipIdx_cons, List.map_cons, ih rest]
      rfl

theorem prototypeName_alike {t t' : SyntaxTree} (same : t.Alike t') :
    prototypeName t = prototypeName t' := by
  cases same
  rfl

theorem prototypeOf_alike {t t' : SyntaxTree} (same : t.Alike t') (isExternal : Bool) :
    (prototypeOf t isExternal).unplaced = (prototypeOf t' isExternal).unplaced := by
  cases same with
  | node _ children _ =>
    unfold prototypeOf Prototype.unplaced
    simp only [List.map_map]
    congr 1
    exact unplaced_parameters children 0

theorem agrees_changeEnv {f f' : Environment → Environment}
    (each : ∀ r r' : Resolver, r.Alike table table' r' → Resolver.Alike table table'
      { r with env := f r.env } { r' with env := f' r'.env }) :
    Agrees table table' (fun _ _ => True) (changeEnv f) (changeEnv f') :=
  fun r r' alike => ⟨trivial, each r r' alike⟩

theorem acceptsHeader_alike {env env' : Environment} (alike : env.Alike env') {t t' : SyntaxTree}
    (same : t.Alike t') : env.AcceptsHeader t ↔ env'.AcceptsHeader t' := by
  have name := prototypeName_alike same
  have arity := Prototype.arity_eq (prototypeOf_alike same false)
  rw [arity_prototypeOf, arity_prototypeOf] at arity
  have declared := alike.declarations (prototypeName t)
  unfold Environment.AcceptsHeader
  rw [← name, ← arity]
  cases left : env.declarations[prototypeName t]? <;>
    cases right : env'.declarations[prototypeName t]? <;>
    simp only [left, right, Option.map_some, Option.map_none, reduceCtorEq, Option.some.injEq] at declared
  · simp
  · simp [Prototype.arity_eq declared]

/-- A header is accepted or refused wherever it stands. -/
theorem declare_cases {t t' : SyntaxTree} (same : t.Alike t') (form : isPrototype t = true)
    (isExternal : Bool) {r r' : Resolver} (alike : r.env.Alike r'.env) :
    (declare t isExternal r = .ok (prototypeOf t isExternal)
        { r with env := r.env.declare (prototypeOf t isExternal) } ∧
      declare t' isExternal r' = .ok (prototypeOf t' isExternal)
        { r' with env := r'.env.declare (prototypeOf t' isExternal) }) ∨
      ∃ d d', declare t isExternal r = .error d r ∧ declare t' isExternal r' = .error d' r' := by
  have form' : isPrototype t' = true := by cases same; exact form
  have accepts := acceptsHeader_alike alike same
  by_cases accepted : r.env.AcceptsHeader t
  · exact .inl ⟨declare_ok form accepted isExternal, declare_ok form' (accepts.mp accepted) isExternal⟩
  · exact .inr ⟨_, _, declare_error form accepted isExternal,
      declare_error form' (mt accepts.mpr accepted) isExternal⟩

theorem agrees_declare {t t' : SyntaxTree} (same : t.Alike t') (form : isPrototype t = true)
    (isExternal : Bool) (admits : table.Admits (prototypeName t))
    (admits' : table'.Admits (prototypeName t)) :
    Agrees table table' (fun p p' => p = prototypeOf t isExternal ∧ p' = prototypeOf t' isExternal)
      (declare t isExternal) (declare t' isExternal) := by
  intro r r' alike
  rcases declare_cases same form isExternal alike.env with ⟨run, run'⟩ | ⟨d, d', run, run'⟩
  · rw [run, run']
    exact {
      left := ⟨rfl, rfl⟩
      right := {
        env := alike.env.declare (prototypeOf_alike same isExternal)
          ⟨alike.operators ▸ admits, alike.operators' ▸ admits'⟩
        body := alike.body
        operators := alike.operators
        operators' := alike.operators' } }
  · rw [run, run']
    exact ⟨trivial, alike⟩

theorem agree_beginFunction {f : Unit → ResolveUnit α} {f' : Unit → ResolveUnit α'}
    {r r' : Resolver} (idle : r.Idle table table' r') (next : Agrees table table' R (f ()) (f' ())) :
    Agree (Resolver.Alike table table') (fun _ _ => True) R ((beginFunction >>= f) r)
      ((beginFunction >>= f') r') :=
  next _ _ ⟨idle.env, idle.body.begin, idle.operators, idle.operators'⟩

theorem agrees_takeLocals : Agrees table table'
    (fun ls ls' => Local.unplacedAll ls = Local.unplacedAll ls') takeLocals takeLocals := by
  intro r r' alike
  have body := alike.body
  exact ⟨body.locals, alike.env,
    ⟨body.scopes, rfl, body.results, body.depth_eq, body.hidden⟩, alike.operators, alike.operators'⟩

/-- Parameters are bound in a scope inside the outermost one. -/
theorem agrees_bindParameters {ps ps' : List Parameter} (depth : Nat)
    (same : ps.map Parameter.unplaced = ps'.map Parameter.unplaced) :
    Resolve.Agrees (depth + 2) (fun _ _ => True) (Resolve.bindParameters ps)
      (Resolve.bindParameters ps') := by
  intro b b' alike
  refine ⟨trivial, ?_⟩
  induction ps generalizing ps' b b' with
  | nil =>
    rw [List.map_eq_nil_iff.mp same.symm]
    exact alike
  | cons p ps ih =>
    obtain ⟨p', rest, rfl, one, others⟩ := List.map_eq_cons_iff.mp same.symm
    have name : p.name = p'.name := (congrArg Parameter.name one).symm
    have bound : Body.Alike (depth + 2) { b with scopes := b.scopes.insert p.name (.given p) }
        { b' with scopes := b'.scopes.insert p'.name (.given p') } :=
      { scopes := name ▸ alike.scopes.insert p.name (congrArg Binding.given one.symm)
        locals := alike.locals
        results := alike.results
        depth_eq := alike.depth_eq
        hidden := alike.hidden.insert alike.deep p.name _ }
    exact ih others.symm _ _ bound

/-- The bodies of functions with like headers. -/
theorem agrees_body {ps ps' : List Parameter}
    (parameters : ps.map Parameter.unplaced = ps'.map Parameter.unplaced) {body body' : SyntaxTree}
    (same : body.Alike body') :
    Agrees table table' Expr.Alike
      (inBody fun env => Resolve.inScope do
        Resolve.bindParameters ps
        Resolve.expr env body)
      (inBody fun env => Resolve.inScope do
        Resolve.bindParameters ps'
        Resolve.expr env body') :=
  agrees_inBody fun _ _ alike => Resolve.agrees_inScope
    ((agrees_bindParameters 0 parameters).bind fun _ _ _ => Resolve.agrees_expr alike same 1)

theorem contains_definitions {env env' : Environment} (alike : env.Alike env') (name : String) :
    env.definitions.contains name = env'.definitions.contains name := by
  rw [← Std.ExtTreeMap.isSome_getElem?_eq_contains, ← Std.ExtTreeMap.isSome_getElem?_eq_contains]
  simpa using congrArg Option.isSome (alike.definitions name)

theorem operators_restoreDeclaration (env : Environment) (name : String) (previous : Option Prototype) :
    (env.restoreDeclaration name previous).operators = env.operators := by
  cases previous <;> rfl

theorem agrees_define {d d' : FunctionDefinition} (same : d.unplaced = d'.unplaced)
    (sound : d'.body.errors = []) (admits : table.Admits d.name) (admits' : table'.Admits d.name) :
    Agrees table table' Program.Alike
      (changeEnv (fun env => env.define d) >>= fun _ => pure (Program.definition d))
      (changeEnv (fun env => env.define d') >>= fun _ => pure (Program.definition d')) :=
  (agrees_changeEnv fun _ _ alike =>
    { env := alike.env.define same ⟨alike.operators ▸ admits, alike.operators' ▸ admits'⟩
      body := alike.body
      operators := alike.operators
      operators' := alike.operators' }).bind fun _ _ _ => related_pure (.defined same sound)

theorem agree_functionDefinition {t t' : SyntaxTree} (same : t.Alike t') {r r' : Resolver}
    (idle : r.Idle table table' r') (form : t.IsUnit) (kind : t.kind = .functionDefinition)
    (admits : table.AdmitsUnit t) (admits' : table'.AdmitsUnit t) :
    Agree (Resolver.Alike table table') (fun _ _ => True) Program.Alike (functionDefinition t r)
      (functionDefinition t' r') := by
  cases form with
  | declaration => cases kind
  | bare => cases kind
  | @definition span text header body form _ =>
    have admits := admits (by simp) header rfl
    have admits' := admits' (by simp) header rfl
    obtain ⟨span', header', body', rfl, sameHeader, sameBody⟩ : ∃ span' header' body',
        t' = { kind := .functionDefinition, span := span', text, children := [header', body'] } ∧
          header.Alike header' ∧ body.Alike body' := by
      cases same with
      | node _ children operators =>
        cases operators
        cases children with
        | cons first rest =>
          cases rest with
          | cons second rest =>
            cases rest
            exact ⟨_, _, _, rfl, first, second⟩
    have name := prototypeName_alike sameHeader
    have signature := prototypeOf_alike sameHeader false
    refine agree_beginFunction idle ?_
    dsimp only
    refine related_get fun r r' alike => ?_
    rw [← name, ← alike.env.options, ← contains_definitions alike.env]
    split
    · exact ⟨trivial, alike⟩
    refine (agrees_declare sameHeader form false admits admits').bind (fun p p' same => ?_) r r' alike
    obtain ⟨rfl, rfl⟩ := same
    refine Related.bind (R := Expr.Alike) ?_ fun e e' sameExpr => ?_
    · refine agrees_onFailure (agrees_body (congrArg Prototype.parameters signature) sameBody)
        fun _ _ alike' => ?_
      exact {
        env := alike'.env.restoreDeclaration (alike.env.declarations (prototypeName header))
          ⟨alike'.operators ▸ admits, alike'.operators' ▸ admits'⟩
        body := alike'.body
        operators := by rw [operators_restoreDeclaration]; exact alike'.operators
        operators' := by rw [operators_restoreDeclaration]; exact alike'.operators' }
    refine agrees_takeLocals.bind fun ls ls' sameLocals => agrees_define ?_ sameExpr.sound admits admits'
    simp only [FunctionDefinition.unplaced, signature, sameExpr.unplaced, sameLocals]

/-- A declaration has no body. -/
theorem agree_externalDeclaration {t t' : SyntaxTree} (same : t.Alike t') {r r' : Resolver}
    (idle : r.Idle table table' r') (form : t.IsUnit) (kind : t.kind = .externalDeclaration)
    (admits : table.AdmitsUnit t) (admits' : table'.AdmitsUnit t) :
    Agree (Resolver.Idle table table') (fun _ _ => True) Program.Alike (externalDeclaration t r)
      (externalDeclaration t' r') := by
  cases form with
  | definition => cases kind
  | bare => cases kind
  | @declaration span text header form =>
    have admits := admits (by simp) header rfl
    have admits' := admits' (by simp) header rfl
    cases same with
    | node _ children _ =>
      cases children with
      | cons first _ =>
        unfold externalDeclaration
        dsimp only
        have unplaced := prototypeOf_alike first true
        rcases declare_cases first form true idle.env with ⟨run, run'⟩ | ⟨d, d', run, run'⟩
        · rw [bind_ok run, bind_ok run']
          exact {
            left := .declared unplaced
            right := {
              env := idle.env.declare unplaced
                ⟨idle.operators ▸ admits, idle.operators' ▸ admits'⟩
              body := idle.body
              operators := idle.operators
              operators' := idle.operators' } }
        · rw [bind_error run, bind_error run']
          exact ⟨trivial, idle⟩

theorem agree_topLevelExpression {t t' : SyntaxTree} (same : t.Alike t') {r r' : Resolver}
    (idle : r.Idle table table' r') (form : t.IsUnit) (kind : t.kind = .topLevelExpression) :
    Agree (Resolver.Alike table table') (fun _ _ => True) Program.Alike (topLevelExpression t r)
      (topLevelExpression t' r') := by
  cases form with
  | definition => cases kind
  | declaration => cases kind
  | @bare span text body _ =>
    cases same with
    | node _ children _ =>
      cases children with
      | cons first _ =>
        refine agree_beginFunction idle ?_
        dsimp only
        refine related_get fun r r' alike => ?_
        have name := alike.env.nextAnonymousName
        have counted : Agrees table table' (fun _ _ => True) (changeEnv Environment.countAnonymous)
            (changeEnv Environment.countAnonymous) :=
          agrees_changeEnv fun _ _ alike =>
            ⟨alike.env.countAnonymous, alike.body, alike.operators, alike.operators'⟩
        refine (counted.bind fun _ _ _ => (agrees_inBody fun _ _ alike =>
          Resolve.agrees_expr alike first 0).bind fun e e' sameExpr => ?_) r r' alike
        refine agrees_takeLocals.bind fun ls ls' sameLocals => agrees_define ?_ sameExpr.sound
          (table.admits_anonymous r.env) (table'.admits_anonymous r.env)
        simp only [FunctionDefinition.unplaced, Prototype.unplaced, name, sameExpr.unplaced, sameLocals,
          List.map_nil]

end ResolveUnit

namespace Resolver

variable {r r' : Resolver}

/-- The same becomes of a statement wherever it stands. -/
theorem unit_alike {t t' : SyntaxTree} (same : t.Alike t') (form : t.IsUnit)
    (idle : r.Idle table table' r') (admits : table.AdmitsUnit t) (admits' : table'.AdmitsUnit t) :
    (r.unit t).1.Alike (r'.unit t').1 ∧ Resolver.Idle table table' (r.unit t).2 (r'.unit t').2 := by
  have kind : t.kind = t'.kind := by cases same; rfl
  have agree : Agree (Resolver.Idle table table') (fun _ _ => True) Program.Alike
      (ResolveUnit.statement t r) (ResolveUnit.statement t' r') := by
    have idles : ∀ s s' : Resolver, s.Alike table table' s' → s.Idle table table' s' :=
      fun _ _ alike => alike.idle
    unfold ResolveUnit.statement
    rw [← kind]
    cases form with
    | definition header body =>
      exact (ResolveUnit.agree_functionDefinition same idle (.definition header body) rfl admits
        admits').weaken idles
    | declaration header =>
      exact ResolveUnit.agree_externalDeclaration same idle (.declaration header) rfl admits admits'
    | bare body =>
      exact (ResolveUnit.agree_topLevelExpression same idle (.bare body) rfl).weaken idles
  unfold unit
  cases run : ResolveUnit.statement t r <;> cases run' : ResolveUnit.statement t' r' <;>
    rw [run, run'] at agree
  · exact agree
  · exact agree.elim
  · exact agree.elim
  · exact ⟨.refused, agree.2⟩

end Resolver

end OpenExpr
