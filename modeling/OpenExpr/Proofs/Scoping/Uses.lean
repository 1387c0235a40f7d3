import OpenExpr.Program.Errors
import OpenExpr.Resolution.Statement

namespace OpenExpr

/-- A part of an expression that takes its meaning from elsewhere. A name comes with
what is in scope where it stands, the innermost and most recent first. -/
inductive Use where
  | variable (name : String) (span : Span) (scope : List Binding)
  | function (name : String)
  | infixOp (text : String)
  | prefixOp (text : String)

/-- There is a function of the name, defined or only declared. -/
def Environment.Offers (env : Environment) (name : String) : Prop :=
  name ∈ env.definitions ∨ name ∈ env.declarations

namespace Use

/-- What is used is there. An operator that is not built in has to be in the table
and to have a function. -/
def IsKnown (env : Environment) : Use → Prop
  | .variable name _ scope => ∃ b ∈ scope, b.name = name
  | .function name => env.Offers name
  | .infixOp text => ∃ c, text.toList = [c] ∧ ((BuiltIn.ofSymbol? c).isSome = true ∨
      (env.operators.infixOp? c).isSome = true ∧ env.Offers (binaryFunctionName text))
  | .prefixOp text => ∃ c, text.toList = [c] ∧
      (env.operators.prefixOp? c).isSome = true ∧ env.Offers (unaryFunctionName text)

/-- The binding that a variable stands for, and where the variable stands. -/
def target? : Use → Option (Binding × Span)
  | .variable name span scope => (scope.find? fun b => b.name == name).map fun b => (b, span)
  | _ => none

end Use

namespace SyntaxTree

/-- What a node uses by itself. -/
def Kind.uses (kind : Kind) (text : String) (span : Span) (scope : List Binding) : List Use :=
  match kind with
  | .reference => [.variable text span scope]
  | .functionCall => [.function text]
  | .unaryOperator => [.prefixOp text]
  | _ => []

/-- The scope behind a node: a name that is bound is seen from behind its value on. -/
def scopeAfter (t : SyntaxTree) (scope : List Binding) : List Binding :=
  if t.kind = .initializer then
    .declared { name := t.text, isGenerated := false, span := t.span } :: scope
  else scope

mutual

/-- What a tree uses, in the order of the source. Names that are bound below a node
are seen by the nodes that follow beside their binder, and nowhere else. -/
def uses (scope : List Binding) (t : SyntaxTree) : List Use :=
  match t with
  | { kind, span, text, children, operators } =>
    kind.uses text span scope ++ usesAll scope children ++ usesOperators scope operators

def usesAll (scope : List Binding) : List SyntaxTree → List Use
  | [] => []
  | t :: ts => t.uses scope ++ usesAll (t.scopeAfter scope) ts

def usesOperators (scope : List Binding) : List (Token × SyntaxTree) → List Use
  | [] => []
  | (operator, t) :: rest => .infixOp operator.text :: (t.uses scope ++ usesOperators scope rest)

end

end SyntaxTree

mutual

/-- The references to variables in an expression, in the order of the source, each
with what it refers to. -/
def Expr.references : Expr → List (Binding × Span)
  | .constant _ _ | .error _ => []
  | .reference binding span => [(binding, span)]
  | .call _ arguments _ => Expr.referencesAll arguments
  | .builtIn _ left right _ => left.references ++ right.references
  | .conditional condition thenBranch elseBranch result _ =>
    condition.references ++ thenBranch.references ++ elseBranch.references ++ result.references
  | .forLoop counter condition step body _ =>
    counter.references ++ condition.references ++ step.references ++ body.references
  | .varIn locals body _ => Local.referencesAll locals ++ body.references

def Expr.referencesAll : List Expr → List (Binding × Span)
  | [] => []
  | e :: es => e.references ++ Expr.referencesAll es

def Local.references : Local → List (Binding × Span)
  | .initialized _ value => value.references
  | .slot _ => []

def Local.referencesAll : List Local → List (Binding × Span)
  | [] => []
  | l :: ls => l.references ++ Local.referencesAll ls

end

/-- Nothing is in scope where the part stands but what a source binds. -/
def Use.SeesWritten : Use → Prop
  | .variable _ _ scope => ∀ b ∈ scope, b.isGenerated = false
  | _ => True

theorem Use.SeesWritten.target? {u : Use} (written : u.SeesWritten) {b : Binding} {span : Span}
    (target : u.target? = some (b, span)) : b.isGenerated = false := by
  rcases u with ⟨name, place, scope⟩ | _ | _ | _
  · obtain ⟨_, found, ⟨⟩⟩ := Option.map_eq_some_iff.mp target
    exact written b (List.mem_of_find?_eq_some found)
  all_goals cases target

namespace SyntaxTree

variable {scope : List Binding}

theorem isGenerated_scopeAfter (t : SyntaxTree) (written : ∀ b ∈ scope, b.isGenerated = false) :
    ∀ b ∈ t.scopeAfter scope, b.isGenerated = false := by
  unfold scopeAfter
  split
  · exact List.forall_mem_cons.mpr ⟨rfl, written⟩
  · exact written

theorem seesWritten_kindUses (kind : Kind) (text : String) (span : Span)
    (written : ∀ b ∈ scope, b.isGenerated = false) :
    ∀ u ∈ kind.uses text span scope, u.SeesWritten := by
  unfold Kind.uses
  split <;> simp [Use.SeesWritten]
  exact written

mutual

/-- Below a node only names come into scope that the source binds there. -/
theorem seesWritten_uses {scope : List Binding} (written : ∀ b ∈ scope, b.isGenerated = false) :
    (t : SyntaxTree) → ∀ u ∈ t.uses scope, u.SeesWritten
  | ⟨kind, span, text, children, operators⟩ => by
    rw [uses, List.forall_mem_append, List.forall_mem_append]
    exact ⟨⟨seesWritten_kindUses kind text span written, seesWritten_usesAll written children⟩,
      seesWritten_usesOperators written operators⟩

theorem seesWritten_usesAll {scope : List Binding} (written : ∀ b ∈ scope, b.isGenerated = false) :
    (ts : List SyntaxTree) → ∀ u ∈ usesAll scope ts, u.SeesWritten
  | [] => by simp [usesAll]
  | t :: ts => by
    rw [usesAll, List.forall_mem_append]
    exact ⟨seesWritten_uses written t, seesWritten_usesAll (isGenerated_scopeAfter t written) ts⟩

theorem seesWritten_usesOperators {scope : List Binding}
    (written : ∀ b ∈ scope, b.isGenerated = false) :
    (operators : List (Token × SyntaxTree)) → ∀ u ∈ usesOperators scope operators, u.SeesWritten
  | [] => by simp [usesOperators]
  | (operator, t) :: rest => by
    rw [usesOperators, List.forall_mem_cons, List.forall_mem_append]
    exact ⟨trivial, seesWritten_uses written t, seesWritten_usesOperators written rest⟩

end

end SyntaxTree

/-- All that is used is there. -/
def AllKnown (env : Environment) (us : List Use) : Prop :=
  ∀ u ∈ us, u.IsKnown env

@[simp] theorem allKnown_nil (env : Environment) : AllKnown env [] := by
  simp [AllKnown]

@[simp] theorem allKnown_cons {env : Environment} {u : Use} {us : List Use} :
    AllKnown env (u :: us) ↔ u.IsKnown env ∧ AllKnown env us := by
  simp [AllKnown]

@[simp] theorem allKnown_append {env : Environment} {us vs : List Use} :
    AllKnown env (us ++ vs) ↔ AllKnown env us ∧ AllKnown env vs :=
  List.forall_mem_append

theorem Environment.offers_iff {env : Environment} {name : String} :
    env.Offers name ↔ ∃ p, env.callee? name = some p := by
  unfold Offers callee?
  rw [← Std.ExtTreeMap.isSome_getElem?_iff_mem, ← Std.ExtTreeMap.isSome_getElem?_iff_mem]
  cases env.definitions[name]? with
  | none =>
    simp only [Option.isSome_none, Bool.false_eq_true, false_or, Option.isSome_iff_exists]
  | some d => simp

/-- The expression is sound, and its references are those that a source asks for. -/
structure Expr.Answers (e : Expr) (us : List Use) : Prop where
  sound : e.errors = []
  references : e.references = us.filterMap Use.target?

structure Expr.AllAnswer (es : List Expr) (us : List Use) : Prop where
  sound : Expr.errorsAll es = []
  references : Expr.referencesAll es = us.filterMap Use.target?

structure Local.Answers (l : Local) (us : List Use) : Prop where
  sound : l.errors = []
  references : l.references = us.filterMap Use.target?

/-- Variables with their body, which is part of what they are bound for. -/
structure Local.AllAnswer (parts : List Local × Expr) (us : List Use) : Prop where
  sound : Local.errorsAll parts.1 ++ parts.2.errors = []
  references : Local.referencesAll parts.1 ++ parts.2.references = us.filterMap Use.target?

end OpenExpr
