import OpenExpr.Proofs.Scoping.Resolution
import OpenExpr.Proofs.Scoping.Unit

namespace OpenExpr

namespace SyntaxTree

/-- What is in scope in the whole body of a function: its parameters, the last first. -/
def headerScope (header : SyntaxTree) : List Binding :=
  (ResolveUnit.prototypeOf header false).parameters.reverse.map .given

/-- What the body of a statement uses, if it has one. A bare expression stands in no
scope. -/
def bodyUses (t : SyntaxTree) : List Use :=
  match t.kind, t.children with
  | .functionDefinition, header :: body :: _ => body.uses header.headerScope
  | .topLevelExpression, body :: _ => body.uses []
  | _, _ => []

/-- A body stands where nothing is in scope but what its source binds. -/
theorem seesWritten_bodyUses (t : SyntaxTree) : ∀ u ∈ t.bodyUses, u.SeesWritten := by
  unfold bodyUses
  split
  · refine seesWritten_uses ?_ _
    simp [headerScope, Binding.isGenerated]
  · exact seesWritten_uses (by simp) _
  · simp

end SyntaxTree

/-- The references to variables in what became of a statement. -/
def Program.references : Program → List (Binding × Span)
  | .definition d => d.body.references
  | _ => []

namespace Environment

/-- A function that is declared again keeps its number of parameters. -/
def AcceptsHeader (env : Environment) (header : SyntaxTree) : Prop :=
  ∀ previous, env.declarations[ResolveUnit.prototypeName header]? = some previous →
    previous.arity = header.children.length

/-- Nothing is wrong with the header of a statement, if it has one. -/
def Accepts (env : Environment) (t : SyntaxTree) : Prop :=
  match t.kind, t.children with
  | .functionDefinition, header :: _ =>
    (env.options.isStrict = true → ResolveUnit.prototypeName header ∉ env.definitions) ∧
      env.AcceptsHeader header
  | .externalDeclaration, header :: _ => env.AcceptsHeader header
  | _, _ => True

/-- The environment of the body of a statement: a function may call itself. -/
def inside (env : Environment) (t : SyntaxTree) : Environment :=
  match t.kind, t.children with
  | .functionDefinition, header :: _ => env.declare (ResolveUnit.prototypeOf header false)
  | _, _ => env

/-- The name under which a statement makes a function known. -/
def nameOf (env : Environment) (t : SyntaxTree) : String :=
  match t.kind, t.children with
  | .topLevelExpression, _ | _, [] => env.nextAnonymousName
  | _, header :: _ => ResolveUnit.prototypeName header

/-- What a statement can make of an environment: what it becomes, and what is known
afterwards. -/
inductive Step (env : Environment) (t : SyntaxTree) : Program → Environment → Prop
  | refused {d} : t.kind ≠ .topLevelExpression → Step env t (.error d) env
  | declared {p} : t.kind = .externalDeclaration → p.name = env.nameOf t →
      Step env t (.prototype p) (env.declare p)
  | defined {d} : t.kind = .functionDefinition → d.name = env.nameOf t → d.isAnonymous = false →
      d.body.errors = [] → (env.options.isStrict = true → d.name ∉ env.definitions) →
      Step env t (.definition d) ((env.declare d.signature).define d)
  | bareRefused {d} : t.kind = .topLevelExpression → Step env t (.error d) env.countAnonymous
  | bare {d} : t.kind = .topLevelExpression → d.name = env.nameOf t → d.isAnonymous = true →
      d.body.errors = [] → Step env t (.definition d) (env.countAnonymous.define d)

/-- A declaration that is taken back leaves nothing behind. -/
theorem restoreDeclaration_declare (env : Environment) (p : Prototype) :
    (env.declare p).restoreDeclaration p.name env.declarations[p.name]? = env := by
  have same : ((env.declare p).restoreDeclaration p.name env.declarations[p.name]?).declarations =
      env.declarations := by
    refine Std.ExtTreeMap.ext_getElem? fun key => ?_
    unfold restoreDeclaration declare
    by_cases here : p.name = key
    · rw [← here]
      cases previous : env.declarations[p.name]? <;> simp
    · cases previous : env.declarations[p.name]? <;>
        simp [Std.ExtTreeMap.getElem?_insert, Std.ExtTreeMap.getElem?_erase, here]
  unfold restoreDeclaration declare at same ⊢
  cases previous : env.declarations[p.name]? <;> simp_all

end Environment

namespace ResolveUnit

variable {α β : Type} {r r' : Resolver}

theorem bind_ok {p : ResolveUnit α} {a : α} (run : p r = .ok a r') (f : α → ResolveUnit β) :
    (p >>= f) r = f a r' := by
  change EStateM.bind p f r = _
  simp only [EStateM.bind, run]

theorem bind_error {p : ResolveUnit α} {d : Diagnostic} (run : p r = .error d r')
    (f : α → ResolveUnit β) : (p >>= f) r = .error d r' := by
  change EStateM.bind p f r = _
  simp only [EStateM.bind, run]

theorem inBody_ok {part : Environment → Resolve α} {a : α} {b : Body}
    (run : part r.env r.body = .ok a b) : inBody part r = .ok a { r with body := b } := by
  simp only [inBody, run]

theorem inBody_error {part : Environment → Resolve α} {d : Diagnostic} {b : Body}
    (run : part r.env r.body = .error d b) : inBody part r = .error d { r with body := b } := by
  simp only [inBody, run]

theorem onFailure_ok {undo : Environment → Environment} {part : ResolveUnit α} {a : α}
    (run : part r = .ok a r') : onFailure undo part r = .ok a r' := by
  simp only [onFailure, run]

theorem onFailure_error {undo : Environment → Environment} {part : ResolveUnit α} {d : Diagnostic}
    (run : part r = .error d r') :
    onFailure undo part r = .error d { r' with env := undo r'.env } := by
  simp only [onFailure, run]

theorem arity_prototypeOf (header : SyntaxTree) (isExternal : Bool) :
    (prototypeOf header isExternal).arity = header.children.length := by
  simp [prototypeOf, Prototype.arity]

theorem get_bind {α : Type} (f : Resolver → ResolveUnit α) (r : Resolver) : (get >>= f) r = f r r := rfl

theorem declare_ok {header : SyntaxTree} (form : isPrototype header = true)
    (accepted : r.env.AcceptsHeader header) (isExternal : Bool) :
    declare header isExternal r = .ok (prototypeOf header isExternal)
      { r with env := r.env.declare (prototypeOf header isExternal) } := by
  unfold declare
  simp only [form, if_true]
  rw [get_bind]
  cases known : r.env.declarations[(prototypeOf header isExternal).name]? with
  | none => rfl
  | some previous =>
    dsimp only
    rw [if_pos ((accepted previous known).trans (arity_prototypeOf header isExternal).symm)]
    rfl

theorem declare_error {header : SyntaxTree} (form : isPrototype header = true)
    (refused : ¬ r.env.AcceptsHeader header) (isExternal : Bool) :
    declare header isExternal r =
      .error (Problem.incompatibleRedeclaration.diagnostic header.span) r := by
  obtain ⟨previous, known, other⟩ : ∃ previous,
      r.env.declarations[prototypeName header]? = some previous ∧
        previous.arity ≠ header.children.length := by
    simpa [Environment.AcceptsHeader] using refused
  unfold declare
  simp only [form, if_true]
  rw [get_bind, show (prototypeOf header isExternal).name = prototypeName header from rfl,
    known]
  dsimp only
  rw [if_neg (by rwa [arity_prototypeOf])]
  rfl

/-- What becomes of a statement where no name that can be written is in scope. It is
resolved exactly if its header is accepted and all that its body uses is there. -/
structure Resolved (r : Resolver) (t : SyntaxTree) (u : Program) (r' : Resolver) : Prop where
  step : r.env.Step t u r'.env
  scopes : r'.body.scopes.Sees []
  known : u.isError = false ↔ r.env.Accepts t ∧ AllKnown (r.env.inside t) t.bodyUses
  references : u.isError = false → u.references = t.bodyUses.filterMap Use.target?

/-- A statement that is refused before its body is looked at. -/
theorem Resolved.refused {t : SyntaxTree} {d : Diagnostic} (other : t.kind ≠ .topLevelExpression)
    (env : r'.env = r.env) (scopes : r'.body.scopes.Sees []) (wrong : ¬ r.env.Accepts t) :
    Resolved r t (.error d) r' where
  step := env ▸ .refused other
  scopes := scopes
  known := iff_of_false Bool.noConfusion fun both => wrong both.1
  references := Bool.noConfusion

theorem foldl_enclosing (ps : List Parameter) (s : Scopes Binding) :
    (ps.foldl (fun s p => s.insert p.name (.given p)) s).enclosing = s.enclosing := by
  induction ps generalizing s with
  | nil => rfl
  | cons p ps ih => rw [List.foldl_cons, ih]; rfl

theorem sees_parameters {s : Scopes Binding} {scope : List Binding} (sees : s.Sees scope)
    (ps : List Parameter) : (ps.foldl (fun s p => s.insert p.name (.given p)) s).Sees
      (ps.reverse.map .given ++ scope) := by
  induction ps generalizing s scope with
  | nil => exact sees
  | cons p ps ih =>
    rw [List.reverse_cons, List.map_append, List.append_assoc]
    exact ih (sees.insert (.given p))

theorem binds_bindParameters {scope : List Binding} {known : Prop} {P : α → Prop}
    {part : Resolve α} (ps : List Parameter)
    (h : Resolve.Resolves (ps.reverse.map .given ++ scope) known P part) :
    Resolve.Binds scope known P (Resolve.bindParameters ps >>= fun _ => part) := by
  intro b sees
  have inner := h { b with scopes := ps.foldl (fun s p => s.insert p.name (.given p)) b.scopes }
    (sees_parameters sees ps)
  exact inner.imp fun s keeps => keeps.enclosing.trans (foldl_enclosing ps b.scopes)

/-- The parameters are in scope in the whole body, and no longer. -/
theorem resolves_body (env : Environment) (header : SyntaxTree) {body : SyntaxTree}
    (form : body.IsExpr) :
    Resolve.Resolves [] (AllKnown env (body.uses header.headerScope))
      (fun e => e.Answers (body.uses header.headerScope))
      (Resolve.inScope do
        Resolve.bindParameters (prototypeOf header false).parameters
        Resolve.expr env body) := by
  refine (binds_bindParameters _ ?_).inScope
  rw [List.append_nil]
  exact (Resolve.isScoped form).resolves header.headerScope

/-- What comes of a statement, in one piece. -/
def Becomes (r : Resolver) (t : SyntaxTree) : EStateM.Result Diagnostic Resolver Program → Prop
  | .ok u r' => Resolved r t u r'
  | .error d r' => Resolved r t (.error d) r'

theorem becomes_definition {span : Span} {text : String} {header body : SyntaxTree}
    (form : isPrototype header = true) (isExpr : body.IsExpr) (idle : r.body.scopes.Sees []) :
    Becomes r { kind := .functionDefinition, span, text, children := [header, body] }
      (functionDefinition { kind := .functionDefinition, span, text, children := [header, body] } r) := by
  obtain ⟨r0, begun, env, scopes⟩ : ∃ r0, beginFunction r = .ok () r0 ∧ r0.env = r.env ∧
      r0.body.scopes = r.body.scopes := ⟨_, rfl, rfl, rfl⟩
  rw [← scopes] at idle
  have known : (get : ResolveUnit Resolver) r0 = .ok r0 r0 := rfl
  unfold functionDefinition
  rw [bind_ok begun]
  dsimp only
  rw [bind_ok known, env]
  split
  · rename_i redefined
    refine .refused (by simp) env idle fun accepted => ?_
    rw [Bool.and_eq_true, Std.ExtTreeMap.contains_iff_mem] at redefined
    exact accepted.1 redefined.1 redefined.2
  · rename_i fresh
    have once : r.env.options.isStrict = true → prototypeName header ∉ r.env.definitions := by
      rw [Bool.and_eq_true, Std.ExtTreeMap.contains_iff_mem] at fresh
      exact fun strict known => fresh ⟨strict, known⟩
    by_cases accepted : r.env.AcceptsHeader header
    · rw [← env] at accepted
      rw [bind_ok (declare_ok form accepted false)]
      have inner := resolves_body (r0.env.declare (prototypeOf header false)) header isExpr
        r0.body idle
      cases run : Resolve.inScope (do
          Resolve.bindParameters (prototypeOf header false).parameters
          Resolve.expr (r0.env.declare (prototypeOf header false)) body) r0.body with
      | error d b =>
        rw [run] at inner
        rw [bind_error (onFailure_error (inBody_error run)), env]
        exact {
          step := by
            change r.env.Step _ (.error d)
              ((r.env.declare (prototypeOf header false)).restoreDeclaration
                (prototypeOf header false).name r.env.declarations[(prototypeOf header false).name]?)
            rw [r.env.restoreDeclaration_declare (prototypeOf header false)]
            exact .refused (by simp)
          scopes := idle.of_keeps inner.2
          known := iff_of_false Bool.noConfusion fun both => inner.1 (env ▸ both.2)
          references := Bool.noConfusion }
      | ok e b =>
        rw [run] at inner
        rw [bind_ok (onFailure_ok (inBody_ok run)), env]
        exact {
          step := .defined rfl rfl rfl inner.1.2.sound once
          scopes := idle.of_keeps inner.2
          known := iff_of_true rfl ⟨⟨once, env ▸ accepted⟩, env ▸ inner.1.1⟩
          references := fun _ => inner.1.2.references }
    · rw [bind_error (declare_error form (env.symm ▸ accepted) false)]
      exact .refused (by simp) env idle fun both => accepted both.2

theorem becomes_declaration {span : Span} {text : String} {header : SyntaxTree}
    (form : isPrototype header = true) (idle : r.body.scopes.Sees []) :
    Becomes r { kind := .externalDeclaration, span, text, children := [header] }
      (externalDeclaration { kind := .externalDeclaration, span, text, children := [header] } r) := by
  unfold externalDeclaration
  dsimp only
  by_cases accepted : r.env.AcceptsHeader header
  · rw [bind_ok (declare_ok form accepted true)]
    exact {
      step := .declared rfl rfl
      scopes := idle
      known := iff_of_true rfl ⟨accepted, allKnown_nil _⟩
      references := fun _ => rfl }
  · rw [bind_error (declare_error form accepted true)]
    exact .refused (by simp) rfl idle accepted

theorem becomes_bare {span : Span} {text : String} {body : SyntaxTree} (isExpr : body.IsExpr)
    (idle : r.body.scopes.Sees []) :
    Becomes r { kind := .topLevelExpression, span, text, children := [body] }
      (topLevelExpression { kind := .topLevelExpression, span, text, children := [body] } r) := by
  obtain ⟨r0, begun, env, scopes⟩ : ∃ r0, beginFunction r = .ok () r0 ∧ r0.env = r.env ∧
      r0.body.scopes = r.body.scopes := ⟨_, rfl, rfl, rfl⟩
  rw [← scopes] at idle
  have known : (get : ResolveUnit Resolver) r0 = .ok r0 r0 := rfl
  have counted : changeEnv Environment.countAnonymous r0 =
      .ok () { r0 with env := r.env.countAnonymous } := by rw [← env]; rfl
  -- the count has no say in what is there
  have same : AllKnown r.env.countAnonymous (body.uses []) ↔ AllKnown r.env (body.uses []) :=
    forall₂_congr fun u _ => by cases u <;> rfl
  unfold topLevelExpression
  rw [bind_ok begun, bind_ok known, bind_ok counted]
  dsimp only
  have lexical : Resolve.IsScoped r.env.countAnonymous body := Resolve.isScoped isExpr
  have inner := lexical.resolves [] r0.body idle
  cases run : Resolve.expr r.env.countAnonymous body r0.body with
  | error d b =>
    rw [run] at inner
    rw [bind_error (inBody_error run)]
    exact {
      step := .bareRefused rfl
      scopes := idle.of_keeps inner.2
      known := iff_of_false Bool.noConfusion fun both => inner.1 (same.mpr both.2)
      references := Bool.noConfusion }
  | ok e b =>
    rw [run] at inner
    rw [bind_ok (inBody_ok run)]
    exact {
      step := .bare rfl (by rw [← env]; rfl) rfl inner.1.2.sound
      scopes := idle.of_keeps inner.2
      known := iff_of_true rfl ⟨trivial, same.mp inner.1.1⟩
      references := fun _ => inner.1.2.references }

end ResolveUnit

namespace Resolver

variable {r : Resolver}

/-- What becomes of a statement that a source can write. -/
theorem resolved_unit {t : SyntaxTree} (form : t.IsUnit) (idle : r.body.scopes.Sees []) :
    ResolveUnit.Resolved r t (r.unit t).1 (r.unit t).2 := by
  have outcome : ResolveUnit.Becomes r t (ResolveUnit.statement t r) := by
    cases form with
    | definition isHeader isExpr => exact ResolveUnit.becomes_definition isHeader isExpr idle
    | declaration isHeader => exact ResolveUnit.becomes_declaration isHeader idle
    | bare isExpr => exact ResolveUnit.becomes_bare isExpr idle
  unfold unit
  cases run : ResolveUnit.statement t r with
  | ok u r' => rwa [run] at outcome
  | error d r' => rwa [run] at outcome

/-- What stands for input that could not be read changes nothing. -/
theorem unit_of_error {t : SyntaxTree} (error : t.kind = .error) :
    r.unit t = (.error t.misplaced, r) := by
  unfold unit ResolveUnit.statement
  rw [error]
  rfl

/-- Between statements no name that can be written is in scope. -/
theorem sees_units {ts : List SyntaxTree} (forms : ∀ t ∈ ts, t.IsUnit ∨ t.kind = .error)
    (idle : r.body.scopes.Sees []) : (r.units ts).2.body.scopes.Sees [] := by
  induction ts generalizing r with
  | nil => exact idle
  | cons t ts ih =>
    unfold units
    refine ih (fun t member => forms t (List.mem_cons_of_mem _ member)) ?_
    rcases forms t List.mem_cons_self with form | error
    · exact (resolved_unit form idle).scopes
    · rwa [unit_of_error error]

end Resolver

end OpenExpr
