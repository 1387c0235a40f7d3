import OpenExpr.Program.Display
import OpenExpr.Program.Errors

namespace OpenExpr

def Parameter.unplaced (p : Parameter) : Parameter :=
  { p with span := .null }

def Prototype.unplaced (p : Prototype) : Prototype :=
  { p with parameters := p.parameters.map Parameter.unplaced, span := .null }

def Variable.unplaced (v : Variable) : Variable :=
  { v with span := .null }

def Binding.unplaced : Binding → Binding
  | .given p => .given p.unplaced
  | .declared v => .declared v.unplaced

mutual

/-- The expression without the places where its parts stand. Diagnostics are left as
they are. -/
def Expr.unplaced : Expr → Expr
  | .constant value _ => .constant value .null
  | .reference binding _ => .reference binding.unplaced .null
  | .call callee arguments _ => .call callee.unplaced (Expr.unplacedAll arguments) .null
  | .builtIn op left right _ => .builtIn op left.unplaced right.unplaced .null
  | .conditional condition thenBranch elseBranch result _ =>
    .conditional condition.unplaced thenBranch.unplaced elseBranch.unplaced result.unplaced .null
  | .forLoop counter condition step body _ =>
    .forLoop counter.unplaced condition.unplaced step.unplaced body.unplaced .null
  | .varIn locals body _ => .varIn (Local.unplacedAll locals) body.unplaced .null
  | .error diagnostic => .error diagnostic

def Expr.unplacedAll : List Expr → List Expr
  | [] => []
  | e :: es => e.unplaced :: Expr.unplacedAll es

def Local.unplaced : Local → Local
  | .initialized declared value => .initialized declared.unplaced value.unplaced
  | .slot declared => .slot declared.unplaced

def Local.unplacedAll : List Local → List Local
  | [] => []
  | l :: ls => l.unplaced :: Local.unplacedAll ls

end

def FunctionDefinition.unplaced (d : FunctionDefinition) : FunctionDefinition :=
  { d with
    signature := d.signature.unplaced
    body := d.body.unplaced
    locals := Local.unplacedAll d.locals
    span := .null }

theorem Local.unplacedAll_append (ls ms : List Local) :
    unplacedAll (ls ++ ms) = unplacedAll ls ++ unplacedAll ms := by
  induction ls with
  | nil => rfl
  | cons l ls ih => simp [unplacedAll, ih]

theorem Prototype.arity_eq {p p' : Prototype} (same : p.unplaced = p'.unplaced) :
    p.arity = p'.arity := by
  have parameters := congrArg Prototype.parameters same
  simpa [unplaced, arity] using congrArg List.length parameters

theorem Binding.name_unplaced (b : Binding) : b.unplaced.name = b.name := by
  cases b <;> rfl

theorem Prototype.name_eq {p p' : Prototype} (same : p.unplaced = p'.unplaced) : p.name = p'.name :=
  show p.unplaced.name = p'.unplaced.name from congrArg Prototype.name same

theorem Prototype.display_unplaced (p : Prototype) : p.unplaced.display = p.display := by
  have names : p.unplaced.parameters.map Parameter.name = p.parameters.map Parameter.name :=
    List.map_map
  unfold display
  rw [names]
  rfl

mutual

/-- The places of the parts of an expression are not shown. -/
theorem Expr.display_unplaced (e : Expr) : e.unplaced.display = e.display := by
  cases e with
  | constant _ _ => rfl
  | reference binding _ => simp [Expr.unplaced, Expr.display, Binding.name_unplaced]
  | call callee arguments _ =>
    have each := Expr.displayArguments_unplacedAll arguments
    simp [Expr.unplaced, Expr.display, each, Prototype.unplaced]
  | builtIn op left right _ =>
    simp [Expr.unplaced, Expr.display, left.display_unplaced, right.display_unplaced]
  | conditional condition thenBranch elseBranch result _ =>
    simp [Expr.unplaced, Expr.display, condition.display_unplaced, thenBranch.display_unplaced,
      elseBranch.display_unplaced]
  | forLoop counter condition step body _ =>
    simp [Expr.unplaced, Expr.display, counter.display_unplaced, condition.display_unplaced,
      step.display_unplaced, body.display_unplaced]
  | varIn locals body _ =>
    have each := Local.displayAll_unplacedAll locals
    simp [Expr.unplaced, Expr.display, each, body.display_unplaced]
  | error _ => rfl

theorem Expr.displayArguments_unplacedAll (es : List Expr) :
    Expr.displayArguments (Expr.unplacedAll es) = Expr.displayArguments es := by
  cases es with
  | nil => rfl
  | cons e es =>
    have rest := Expr.displayArguments_unplacedAll es
    simp [Expr.unplacedAll, Expr.displayArguments, e.display_unplaced, rest]

theorem Local.display_unplaced (l : Local) : l.unplaced.display = l.display := by
  cases l with
  | initialized declared value =>
    simp [Local.unplaced, Local.display, Variable.unplaced, value.display_unplaced]
  | slot declared => rfl

theorem Local.displayAll_unplacedAll (ls : List Local) :
    Local.displayAll (Local.unplacedAll ls) = Local.displayAll ls := by
  cases ls with
  | nil => rfl
  | cons l ls =>
    have rest := Local.displayAll_unplacedAll ls
    simp [Local.unplacedAll, Local.displayAll, l.display_unplaced, rest]

end

theorem FunctionDefinition.display_unplaced (d : FunctionDefinition) :
    d.unplaced.display = d.display := by
  simp [unplaced, display, Prototype.display_unplaced, Expr.display_unplaced]

/-- The expressions are the same but for the places of their parts, and there is
nothing wrong with them. -/
structure Expr.Alike (e e' : Expr) : Prop where
  unplaced : e.unplaced = e'.unplaced
  sound : e'.errors = []

structure Expr.AllAlike (es es' : List Expr) : Prop where
  unplaced : Expr.unplacedAll es = Expr.unplacedAll es'
  sound : Expr.errorsAll es' = []

structure Local.Alike (l l' : Local) : Prop where
  unplaced : l.unplaced = l'.unplaced
  sound : l'.errors = []

structure Local.AllAlike (ls ls' : List Local) : Prop where
  unplaced : Local.unplacedAll ls = Local.unplacedAll ls'
  sound : Local.errorsAll ls' = []

theorem Local.Alike.declared {l l' : Local} (alike : l.Alike l') :
    l.declared.unplaced = l'.declared.unplaced := by
  have same := alike.unplaced
  cases l <;> cases l' <;> simp_all [Local.unplaced, Local.declared]

theorem Local.Alike.name {l l' : Local} (alike : l.Alike l') : l.name = l'.name :=
  show l.declared.unplaced.name = l'.declared.unplaced.name from congrArg Variable.name alike.declared

end OpenExpr
