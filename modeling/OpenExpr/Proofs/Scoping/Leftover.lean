import OpenExpr.Proofs.Scoping.Form
import OpenExpr.Proofs.TwoRuns

namespace OpenExpr

/-- The scope binds every name that can be written to the same. -/
def SamePlain (m m' : Std.ExtTreeMap String Binding) : Prop :=
  ∀ name, IsPlain name → m[name]? = m'[name]?

/-- The scopes are the same one by one, but for names that cannot be written. -/
structure Scopes.Matches (s s' : Scopes Binding) : Prop where
  innermost : SamePlain s.innermost s'.innermost
  enclosing : List.Forall₂ SamePlain s.enclosing s'.enclosing

namespace Scopes.Matches

variable {s s' : Scopes Binding}

theorem push (same : s.Matches s') : s.push.Matches s'.push where
  innermost _ _ := rfl
  enclosing := .cons same.innermost same.enclosing

theorem pop (same : s.Matches s') : s.pop.Matches s'.pop := by
  have enclosing := same.enclosing
  unfold Scopes.pop
  cases left : s.enclosing <;> cases right : s'.enclosing <;> rw [left, right] at enclosing <;>
    cases enclosing
  · exact same
  · exact ⟨‹_›, ‹_›⟩

theorem insert (same : s.Matches s') (name : String) (b : Binding) :
    (s.insert name b).Matches (s'.insert name b) where
  innermost key plain := by
    have here := same.innermost key plain
    simp only [Scopes.insert, Std.ExtTreeMap.getElem?_insert, here]
  enclosing := same.enclosing

theorem find? (same : s.Matches s') {name : String} (plain : IsPlain name) :
    s.find? name = s'.find? name := by
  have scopes : List.Forall₂ SamePlain (s.innermost :: s.enclosing) (s'.innermost :: s'.enclosing) :=
    .cons same.innermost same.enclosing
  unfold Scopes.find?
  generalize s.innermost :: s.enclosing = left at scopes
  generalize s'.innermost :: s'.enclosing = right at scopes
  induction scopes with
  | nil => rfl
  | cons first _ ih => rw [List.findSome?_cons, List.findSome?_cons, first name plain, ih]

end Scopes.Matches

/-- The bodies are resolved to the same as far as they are, whatever else is left in their
scopes. -/
structure Body.Matches (b b' : Body) : Prop where
  scopes : b.scopes.Matches b'.scopes
  locals : b.locals = b'.locals
  results : b.results = b'.results

namespace Resolve

variable {α β : Type} {env : Environment}

/-- What comes of the part does not depend on names that cannot be written. -/
abbrev Overlooks (p : Resolve α) : Prop :=
  Related Body.Matches Eq Eq p p

theorem overlooks_pure (a : α) : Overlooks (pure a) :=
  related_pure rfl

theorem overlooks_throw (d : Diagnostic) : Overlooks (throw d : Resolve α) :=
  related_throw rfl

theorem Overlooks.bind {p : Resolve α} {f : α → Resolve β} (first : Overlooks p)
    (next : ∀ a, Overlooks (f a)) : Overlooks (p >>= f) :=
  Related.bind first fun a _ same => same ▸ next a

theorem Overlooks.inScope {p : Resolve α} (part : Overlooks p) : Overlooks (inScope p) := by
  intro b b' same
  have agree := part { b with scopes := b.scopes.push } { b' with scopes := b'.scopes.push }
    ⟨same.scopes.push, same.locals, same.results⟩
  unfold Resolve.inScope
  cases run : p { b with scopes := b.scopes.push } <;>
    cases run' : p { b' with scopes := b'.scopes.push } <;> rw [run, run'] at agree
  · exact ⟨agree.1, agree.2.scopes.pop, agree.2.locals, agree.2.results⟩
  · exact agree.elim
  · exact agree.elim
  · exact ⟨agree.1, agree.2.scopes.pop, agree.2.locals, agree.2.results⟩

theorem overlooks_declare (l : Local) : Overlooks (declare l) := fun _ _ same =>
  ⟨rfl, same.scopes.insert l.name _, congrArg (· ++ [l]) same.locals, same.results⟩

/-- The variable for a result is counted, so its name is the same whatever is left of others. -/
theorem overlooks_declareResult (span : Span) : Overlooks (declareResult span) := by
  refine related_get fun b b' same => ?_
  rw [← same.results]
  exact ⟨rfl, same.scopes.insert _ _, congrArg (· ++ [_]) same.locals, rfl⟩

theorem overlooks_bindParameters (ps : List Parameter) : Overlooks (bindParameters ps) := by
  have scopes {s s' : Scopes Binding} (same : s.Matches s') :
      (ps.foldl (fun s p => s.insert p.name (.given p)) s).Matches
        (ps.foldl (fun s p => s.insert p.name (.given p)) s') := by
    induction ps generalizing s s' with
    | nil => exact same
    | cons p ps ih => exact ih (same.insert p.name (.given p))
  exact fun b b' same => ⟨rfl, scopes same.scopes, same.locals, same.results⟩

theorem overlooks_reference {name : String} (plain : IsPlain name) (span : Span) :
    Overlooks (reference name span) := by
  refine related_get fun b b' same => ?_
  rw [same.scopes.find? plain]
  cases b'.scopes.find? name with
  | none => exact overlooks_throw _ b b' same
  | some binding => exact overlooks_pure _ b b' same

theorem overlooks_apply (left : Expr) (operator : Token) (right : Expr) :
    Overlooks (apply env left operator right) := by
  unfold apply
  dsimp only
  split
  · exact overlooks_pure _
  · split
    · exact overlooks_throw _
    · split
      · exact overlooks_throw _
      · exact overlooks_pure _

theorem overlooks_unaryCallee (symbol : Char) (text : String) (span : Span) :
    Overlooks (unaryCallee env symbol text span) := by
  unfold unaryCallee
  dsimp only
  split
  · exact overlooks_throw _
  · split
    · exact overlooks_throw _
    · exact overlooks_pure _

theorem overlooks_exprs {ts : List SyntaxTree} (each : ∀ t ∈ ts, Overlooks (expr env t)) :
    Overlooks (exprs env ts) := by
  induction ts with
  | nil => exact overlooks_pure []
  | cons t ts ih =>
    obtain ⟨first, others⟩ := List.forall_mem_cons.mp each
    exact first.bind fun e => (ih others).bind fun es => overlooks_pure (e :: es)

theorem overlooks_applyAll {operators : List (Token × SyntaxTree)}
    (each : ∀ o ∈ operators, Overlooks (expr env o.2)) (left : Expr) :
    Overlooks (applyAll env left operators) := by
  induction operators generalizing left with
  | nil => exact overlooks_pure left
  | cons o rest ih =>
    obtain ⟨first, others⟩ := List.forall_mem_cons.mp each
    exact first.bind fun right => (overlooks_apply left o.1 right).bind fun left => ih others left

theorem overlooks_initializer {t : SyntaxTree} (form : t.IsInitializer)
    (value : ∀ v ∈ t.children, Overlooks (expr env v)) : Overlooks (initializer env t) := by
  obtain ⟨kind, span, text, children, operators⟩ := t
  obtain ⟨rfl, rfl, _⟩ := form
  unfold initializer
  rw [if_pos rfl]
  cases children with
  | nil => exact overlooks_pure _
  | cons v _ => exact (value v List.mem_cons_self).bind fun e => overlooks_pure _

theorem overlooks_loop {counter : SyntaxTree} (form : counter.IsInitializer)
    (value : ∀ v ∈ counter.children, Overlooks (expr env v)) {part : Local → Resolve Expr}
    (inside : ∀ l, Overlooks (part l)) :
    Overlooks (initializer env counter >>= fun l => inScope (declare l >>= fun _ => part l)) :=
  (overlooks_initializer form value).bind fun l =>
    ((overlooks_declare l).bind fun _ => inside l).inScope

theorem overlooks_bindings {initializers : List SyntaxTree} {body : SyntaxTree}
    (forms : ∀ i ∈ initializers, i.IsInitializer)
    (values : ∀ i ∈ initializers, ∀ v ∈ i.children, Overlooks (expr env v))
    (last : Overlooks (expr env body)) (missing : Diagnostic) :
    Overlooks (bindings env missing (initializers ++ [body])) := by
  induction initializers with
  | nil => exact last.bind fun e => overlooks_pure ([], e)
  | cons first rest ih =>
    obtain ⟨form, forms⟩ := List.forall_mem_cons.mp forms
    obtain ⟨value, values⟩ := List.forall_mem_cons.mp values
    have others := ih forms values
    obtain ⟨next, more, same⟩ := List.exists_cons_of_ne_nil (List.append_ne_nil_of_right_ne_nil rest
      (List.cons_ne_nil body []))
    rw [List.cons_append]
    rw [same] at others ⊢
    unfold bindings
    exact (overlooks_initializer form value).bind fun l => (overlooks_declare l).bind fun _ =>
      others.bind fun parts => overlooks_pure (l :: parts.1, parts.2)

/-- What a source can write as an expression overlooks what it cannot write. -/
theorem overlooks_expr {t : SyntaxTree} (form : t.IsExpr) : Overlooks (expr env t) := by
  induction form with
  | chain _ _ _ first rest =>
    unfold expr
    exact first.bind fun left => overlooks_applyAll rest left
  | paren _ inner =>
    unfold expr
    exact inner
  | @constant span text _ =>
    unfold expr
    dsimp only
    cases Decimal.float? text with
    | none => exact overlooks_throw _
    | some value => exact overlooks_pure _
  | reference plain =>
    unfold expr
    exact overlooks_reference plain _
  | @call span text arguments _ each =>
    unfold expr
    dsimp only
    cases env.callee? text with
    | none => exact overlooks_throw _
    | some callee => exact (overlooks_exprs each).bind fun es => overlooks_pure _
  | prefixed _ _ operand =>
    unfold expr
    exact (overlooks_unaryCallee _ _ _).bind fun callee => operand.bind fun e => overlooks_pure _
  | conditional _ _ _ first second third =>
    unfold expr
    exact first.bind fun c => second.bind fun t => third.bind fun e =>
      (overlooks_declareResult _).bind fun l => overlooks_pure _
  | loop _ _ _ value condition body =>
    unfold expr
    refine overlooks_loop ?_ ?_ fun l => condition.bind fun c => body.bind fun b => overlooks_pure _
    · exact ⟨rfl, rfl, Nat.le_refl 1⟩
    · simpa using value
  | loopStep _ _ _ _ value condition step body =>
    unfold expr
    refine overlooks_loop ?_ ?_ fun l => condition.bind fun c => step.bind fun s => body.bind fun b =>
      overlooks_pure _
    · exact ⟨rfl, rfl, Nat.le_refl 1⟩
    · simpa using value
  | varIn forms _ _ values body =>
    unfold expr
    exact (overlooks_bindings forms values body _).inScope.bind fun parts => overlooks_pure _

end Resolve

end OpenExpr
