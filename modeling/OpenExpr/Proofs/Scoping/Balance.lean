import OpenExpr.Proofs.Locals.Expression
import OpenExpr.Proofs.Scoping.Statement

namespace OpenExpr

/-- There are as many scopes as before. Those around the innermost are the same, and so is the
innermost, but for variables for results that were added to it or took the place of others. -/
structure Scopes.Balanced (s s' : Scopes Binding) : Prop where
  depth : s'.depth = s.depth
  enclosing : s'.enclosing = s.enclosing
  innermost : ∀ name, s'.innermost[name]? = s.innermost[name]? ∨
    ∃ n span, name = resultName n ∧
      s'.innermost[name]? = some (.declared { name, isGenerated := true, span })

namespace Scopes

variable {s s' s'' : Scopes Binding}

theorem Balanced.refl (s : Scopes Binding) : s.Balanced s :=
  ⟨rfl, rfl, fun _ => .inl rfl⟩

theorem Balanced.trans (first : s.Balanced s') (second : s'.Balanced s'') : s.Balanced s'' where
  depth := second.depth.trans first.depth
  enclosing := second.enclosing.trans first.enclosing
  innermost name := by
    rcases second.innermost name with same | added
    · rw [same]
      exact first.innermost name
    · exact .inr added

theorem balanced_insert (s : Scopes Binding) (n : Nat) (span : Span) :
    s.Balanced (s.insert (resultName n) (.declared { name := resultName n, isGenerated := true, span })) where
  depth := rfl
  enclosing := rfl
  innermost name := by
    by_cases here : resultName n = name
    · subst here
      exact .inr ⟨n, span, rfl, Std.ExtTreeMap.getElem?_insert_self⟩
    · exact .inl (by simp [insert, Std.ExtTreeMap.getElem?_insert, here])

end Scopes

section

variable {ε σ α β : Type}

/-- The state in which an action ends, whether it succeeds or fails. -/
def leftState : EStateM.Result ε σ α → σ
  | .ok _ s => s
  | .error _ s => s

/-- Whatever comes of the action, the state that it leaves is related by `R` to the one in which
it starts. -/
def Leaves (R : σ → σ → Prop) (p : EStateM ε σ α) : Prop :=
  ∀ s, R s (leftState (p s))

variable {R R' : σ → σ → Prop} {p : EStateM ε σ α}

theorem Leaves.imp (h : Leaves R p) (weaker : ∀ s s', R s s' → R' s s') : Leaves R' p :=
  fun s => weaker s _ (h s)

theorem Leaves.bind {f : α → EStateM ε σ β} (h : Leaves R p) (next : ∀ a, Leaves R (f a))
    (trans : ∀ {s s' s''}, R s s' → R s' s'' → R s s'') : Leaves R (p >>= f) := by
  intro s
  have first := h s
  change R s (leftState (EStateM.bind p f s))
  unfold EStateM.bind
  cases run : p s with
  | ok a s' =>
    rw [run] at first
    exact trans first (next a s')
  | error e s' =>
    rw [run] at first
    exact first

end

namespace Resolve

variable {α β : Type} {p : Resolve α}

/-- The part leaves the scopes balanced. -/
abbrev Balances (p : Resolve α) : Prop :=
  Leaves (fun b b' => b.scopes.Balanced b'.scopes) p

/-- The part leaves the scopes around the innermost as they were. -/
abbrev StaysInside (p : Resolve α) : Prop :=
  Leaves (fun b b' => b'.scopes.enclosing = b.scopes.enclosing) p

theorem balances_pure (a : α) : Balances (pure a) :=
  fun b => .refl b.scopes

theorem balances_throw (d : Diagnostic) : Balances (throw d : Resolve α) :=
  fun b => .refl b.scopes

theorem Balances.bind {f : α → Resolve β} (h : Balances p) (next : ∀ a, Balances (f a)) :
    Balances (p >>= f) :=
  Leaves.bind h next Scopes.Balanced.trans

theorem Balances.staysInside (h : Balances p) : StaysInside p :=
  h.imp fun _ _ balanced => balanced.enclosing

theorem StaysInside.bind {f : α → Resolve β} (h : StaysInside p) (next : ∀ a, StaysInside (f a)) :
    StaysInside (p >>= f) :=
  Leaves.bind h next fun first second => second.trans first

theorem staysInside_declare (l : Local) : StaysInside (declare l) :=
  fun _ => rfl

/-- What happens in a scope of its own does not leave anything, not even where it breaks off. -/
theorem scopes_inScope (h : StaysInside p) (b : Body) :
    (leftState (inScope p b)).scopes = b.scopes := by
  have inside := h { b with scopes := b.scopes.push }
  unfold inScope
  cases run : p { b with scopes := b.scopes.push } with
  | ok a b' =>
    rw [run] at inside
    exact Scopes.pop_eq inside
  | error d b' =>
    rw [run] at inside
    exact Scopes.pop_eq inside

theorem balances_inScope (h : StaysInside p) : Balances (inScope p) := by
  intro b
  rw [scopes_inScope h]
  exact .refl b.scopes

theorem balances_declareResult (span : Span) : Balances (declareResult span) :=
  fun b => b.scopes.balanced_insert b.results span

variable (env : Environment)

theorem balances_reference (name : String) (span : Span) : Balances (reference name span) := by
  intro b
  unfold reference
  rw [get_bind]
  cases b.scopes.find? name <;> exact .refl b.scopes

theorem balances_apply (left : Expr) (operator : Token) (right : Expr) :
    Balances (apply env left operator right) := by
  unfold apply
  dsimp only
  split
  · exact balances_pure _
  split
  · exact balances_throw _
  split
  · exact balances_throw _
  · exact balances_pure _

theorem balances_unaryCallee (symbol : Char) (text : String) (span : Span) :
    Balances (unaryCallee env symbol text span) := by
  unfold unaryCallee
  split
  · exact balances_throw _
  dsimp only
  split
  · exact balances_throw _
  · exact balances_pure _

mutual

/-- Whatever the tree and however much of it is missing, resolving it leaves the scopes balanced. -/
theorem balances_expr (t : SyntaxTree) : Balances (expr env t) := by
  obtain ⟨kind, span, text, children, operators⟩ := t
  unfold expr
  cases kind with
  | expression =>
    cases children with
    | nil => exact balances_throw _
    | cons operand _ => exact (balances_expr operand).bind fun left => balances_applyAll left operators
  | paren =>
    cases children with
    | nil => exact balances_throw _
    | cons inner _ => exact balances_expr inner
  | constant =>
    dsimp only
    cases Decimal.float? text with
    | none => exact balances_throw _
    | some value => exact balances_pure _
  | reference => exact balances_reference text span
  | functionCall =>
    dsimp only
    cases env.callee? text with
    | none => exact balances_throw _
    | some callee => exact (balances_exprs children).bind fun arguments => balances_pure _
  | unaryOperator =>
    refine (balances_unaryCallee env _ text span).bind fun callee => ?_
    cases children with
    | nil => exact balances_throw _
    | cons operand _ => exact (balances_expr operand).bind fun argument => balances_pure _
  | conditional =>
    cases children with
    | nil => exact balances_throw _
    | cons first rest =>
      refine (balances_expr first).bind fun condition => ?_
      cases rest with
      | nil => exact balances_throw _
      | cons second rest =>
        refine (balances_expr second).bind fun thenBranch => ?_
        cases rest with
        | nil => exact balances_throw _
        | cons third _ =>
          exact (balances_expr third).bind fun elseBranch => (balances_declareResult span).bind fun result =>
            balances_pure _
  | forLoop =>
    cases children with
    | nil => exact balances_throw _
    | cons first rest =>
      refine (balances_initializer first).bind fun counter => balances_inScope ?_
      -- only the counter is bound inside, all else is balanced there
      refine (staysInside_declare counter).bind fun _ => Balances.staysInside ?_
      cases rest with
      | nil => exact balances_throw _
      | cons second rest =>
        refine (balances_expr second).bind fun condition => ?_
        rcases rest with _ | ⟨third, _ | ⟨last, _⟩⟩
        · exact balances_throw _
        · exact (balances_expr third).bind fun body => balances_pure _
        · exact (balances_expr third).bind fun step => (balances_expr last).bind fun body => balances_pure _
  | varIn => exact (balances_inScope (staysInside_bindings _ children)).bind fun parts => balances_pure _
  | _ => exact balances_throw _
termination_by sizeOf t

theorem balances_exprs (ts : List SyntaxTree) : Balances (exprs env ts) := by
  cases ts with
  | nil => exact balances_pure []
  | cons t ts => exact (balances_expr t).bind fun e => (balances_exprs ts).bind fun es => balances_pure (e :: es)
termination_by sizeOf ts

theorem balances_applyAll (left : Expr) (operators : List (Token × SyntaxTree)) :
    Balances (applyAll env left operators) := by
  cases operators with
  | nil => exact balances_pure left
  | cons o rest =>
    obtain ⟨operator, operand⟩ := o
    exact (balances_expr operand).bind fun right => (balances_apply env left operator right).bind fun whole =>
      balances_applyAll whole rest
termination_by sizeOf operators

theorem balances_initializer (t : SyntaxTree) : Balances (initializer env t) := by
  obtain ⟨kind, span, text, children, operators⟩ := t
  unfold initializer
  dsimp only
  split
  · cases children with
    | nil => exact balances_pure _
    | cons value _ => exact (balances_expr value).bind fun e => balances_pure _
  · exact balances_throw _
termination_by sizeOf t

/-- The variables are bound in the innermost scope, which is their own. -/
theorem staysInside_bindings (missing : Diagnostic) (ts : List SyntaxTree) :
    StaysInside (bindings env missing ts) := by
  rcases ts with _ | ⟨first, _ | ⟨next, rest⟩⟩
  · exact (balances_throw missing).staysInside
  · exact ((balances_expr first).bind fun body => balances_pure _).staysInside
  · exact (balances_initializer first).staysInside.bind fun l => (staysInside_declare l).bind fun _ =>
      (staysInside_bindings missing (next :: rest)).bind fun parts => (balances_pure _).staysInside
termination_by sizeOf ts

end

end Resolve

namespace ResolveUnit

variable {α β : Type} {p : ResolveUnit α}

/-- The part leaves the scopes of the body balanced. -/
abbrev Balances (p : ResolveUnit α) : Prop :=
  Leaves (fun r r' => r.body.scopes.Balanced r'.body.scopes) p

theorem Balances.bind {f : α → ResolveUnit β} (h : Balances p) (next : ∀ a, Balances (f a)) :
    Balances (p >>= f) :=
  Leaves.bind h next Scopes.Balanced.trans

theorem balances_throw (d : Diagnostic) : Balances (throw d : ResolveUnit α) :=
  fun r => .refl r.body.scopes

/-- What does not touch the scopes. -/
theorem balances_of_same (same : ∀ r, (leftState (p r)).body.scopes = r.body.scopes) : Balances p := by
  intro r
  rw [same]
  exact .refl r.body.scopes

theorem balances_inBody {part : Environment → Resolve α} (h : ∀ env, Resolve.Balances (part env)) :
    Balances (inBody part) := by
  intro r
  have inside := h r.env r.body
  unfold inBody
  cases run : part r.env r.body <;> rw [run] at inside <;> exact inside

theorem balances_onFailure {undo : Environment → Environment} (h : Balances p) :
    Balances (onFailure undo p) := by
  intro r
  have inside := h r
  unfold onFailure
  cases run : p r <;> rw [run] at inside <;> exact inside

theorem Balances.get {f : Resolver → ResolveUnit α} (next : ∀ r, Balances (f r)) : Balances (get >>= f) :=
  fun r => next r r

theorem balances_declare (t : SyntaxTree) (isExternal : Bool) : Balances (declare t isExternal) := by
  refine balances_of_same fun r => ?_
  by_cases form : isPrototype t = true
  · by_cases accepted : r.env.AcceptsHeader t
    · rw [declare_ok form accepted]
      rfl
    · rw [declare_error form accepted]
      rfl
  · unfold declare
    rw [if_neg form]
    rfl

/-- The parameters are bound in the scope of the body. -/
theorem balances_body (env : Environment) (ps : List Parameter) (body : SyntaxTree) :
    Resolve.Balances (Resolve.inScope do
      Resolve.bindParameters ps
      Resolve.expr env body) := by
  have parameters : Resolve.StaysInside (Resolve.bindParameters ps) :=
    fun b => foldl_enclosing ps b.scopes
  exact Resolve.balances_inScope (parameters.bind fun _ => (Resolve.balances_expr env body).staysInside)

theorem balances_define (signature : Prototype) (body : Expr) (isAnonymous : Bool) (span : Span) :
    Balances (do
      let d : FunctionDefinition := { signature, body, locals := ← takeLocals, isAnonymous, span }
      changeEnv fun env => env.define d
      return .definition d : ResolveUnit Program) :=
  balances_of_same fun _ => rfl

theorem balances_functionDefinition (t : SyntaxTree) : Balances (functionDefinition t) := by
  unfold functionDefinition
  refine Balances.bind (balances_of_same fun _ => rfl) fun _ => ?_
  generalize t.children = children
  rcases children with _ | ⟨header, _ | ⟨body, _⟩⟩
  · exact balances_throw _
  · exact balances_throw _
  refine Balances.get fun r => ?_
  dsimp only
  split
  · exact balances_throw _
  refine (balances_declare header false).bind fun signature => ?_
  exact (balances_onFailure (balances_inBody fun env => balances_body env signature.parameters body)).bind fun e =>
    balances_define signature e false t.span

theorem balances_topLevelExpression (t : SyntaxTree) : Balances (topLevelExpression t) := by
  unfold topLevelExpression
  refine Balances.bind (balances_of_same fun _ => rfl) fun _ => Balances.get fun r => ?_
  refine Balances.bind (balances_of_same fun _ => rfl) fun _ => ?_
  generalize t.children = children
  rcases children with _ | ⟨body, _⟩
  · exact balances_throw _
  · exact (balances_inBody fun env => Resolve.balances_expr env body).bind fun e =>
      balances_define _ e true t.span

theorem balances_externalDeclaration (t : SyntaxTree) : Balances (externalDeclaration t) := by
  unfold externalDeclaration
  generalize t.children = children
  rcases children with _ | ⟨header, _⟩
  · exact balances_throw _
  · exact (balances_declare header true).bind fun p => balances_of_same fun _ => rfl

/-- Whatever stands in place of a unit, the scopes are balanced when it has been resolved. -/
theorem balances_statement (t : SyntaxTree) : Balances (statement t) := by
  unfold statement
  cases t.kind with
  | functionDefinition => exact balances_functionDefinition t
  | externalDeclaration => exact balances_externalDeclaration t
  | topLevelExpression => exact balances_topLevelExpression t
  | _ => exact balances_throw _

end ResolveUnit

namespace Resolver

theorem balanced_unit (r : Resolver) (t : SyntaxTree) :
    r.body.scopes.Balanced (r.unit t).2.body.scopes := by
  have balanced := ResolveUnit.balances_statement t r
  unfold unit
  cases run : ResolveUnit.statement t r <;> rw [run] at balanced <;> exact balanced

theorem balanced_units (r : Resolver) (ts : List SyntaxTree) :
    r.body.scopes.Balanced (r.units ts).2.body.scopes := by
  induction ts generalizing r with
  | nil => exact .refl r.body.scopes
  | cons t ts ih => exact (r.balanced_unit t).trans (ih (r.unit t).2)

end Resolver

/-- Whatever the trees, and whether they can be resolved or not, the scopes are balanced behind an
expression, behind a unit and behind a row of units. -/
theorem scopes_balanced (env : Environment) (b : Body) (r : Resolver) (t : SyntaxTree)
    (ts : List SyntaxTree) :
    b.scopes.Balanced (leftState (Resolve.expr env t b)).scopes ∧
      r.body.scopes.Balanced (r.unit t).2.body.scopes ∧
      r.body.scopes.Balanced (r.units ts).2.body.scopes :=
  ⟨Resolve.balances_expr env t b, r.balanced_unit t, r.balanced_units ts⟩

end OpenExpr
