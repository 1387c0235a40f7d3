import OpenExpr.Program.Basic

namespace OpenExpr

/-- Any part of a program, seen as a node of one tree. -/
inductive Node where
  | root (units : List Program) (span : Span)
  | prototype (p : Prototype)
  | definition (d : FunctionDefinition)
  | parameter (p : Parameter)
  | localVariable (l : Local)
  | expr (e : Expr)

/-- A program as a node. An error is the same node wherever it stands. -/
def Program.node : Program → Node
  | root units span => .root units span
  | error d => .expr (.error d)
  | prototype p => .prototype p
  | definition d => .definition d
  | expression e => .expr e

namespace Node

/-- The name of the construct that the node is. -/
def kindName : Node → String
  | root _ _ => "Root"
  | prototype _ => "Prototype"
  | definition _ => "FunctionDefinition"
  | parameter _ => "ParameterDeclaration"
  | localVariable _ => "LocalVariableDeclaration"
  | expr (.constant _ _) => "Constant"
  | expr (.reference _ _) => "VariableReference"
  | expr (.call _ _ _) => "FunctionCall"
  | expr (.builtIn _ _ _ _) => "BinaryOperator"
  | expr (.conditional _ _ _ _ _) => "Conditional"
  | expr (.forLoop _ _ _ _ _) => "ForIn"
  | expr (.varIn _ _ _) => "VarIn"
  | expr (.error _) => "Error"

def span : Node → Span
  | root _ s => s
  | prototype p => p.span
  | definition d => d.span
  | parameter p => p.span
  | localVariable l => l.span
  | expr e => e.span

/-- The nodes directly below a node, in the order of the source. The variable
that holds the result of a conditional is not among them: it is not written. -/
def children : Node → List Node
  | root units _ => units.map Program.node
  | prototype p => p.parameters.map parameter
  | definition d => [prototype d.signature, expr d.body]
  | parameter _ => []
  | localVariable l => l.value?.toList.map expr
  | expr (.constant _ _) | expr (.reference _ _) | expr (.error _) => []
  | expr (.call _ arguments _) => arguments.map expr
  | expr (.builtIn _ left right _) => [expr left, expr right]
  | expr (.conditional condition thenBranch elseBranch _ _) =>
    [expr condition, expr thenBranch, expr elseBranch]
  | expr (.forLoop counter condition step body _) =>
    [localVariable counter, expr condition, expr step, expr body]
  | expr (.varIn locals body _) => locals.map localVariable ++ [expr body]

end Node

/-! Every node of a program with its depth, a node before those below it. -/

mutual

def Expr.outline (depth : Nat) (e : Expr) : List (Nat × Node) :=
  (depth, .expr e) ::
    match e with
    | .constant _ _ | .reference _ _ | .error _ => []
    | .call _ arguments _ => Expr.outlineAll (depth + 1) arguments
    | .builtIn _ left right _ => left.outline (depth + 1) ++ right.outline (depth + 1)
    | .conditional condition thenBranch elseBranch _ _ =>
      condition.outline (depth + 1) ++ thenBranch.outline (depth + 1) ++
        elseBranch.outline (depth + 1)
    | .forLoop counter condition step body _ =>
      counter.outline (depth + 1) ++ condition.outline (depth + 1) ++ step.outline (depth + 1) ++
        body.outline (depth + 1)
    | .varIn locals body _ => Local.outlineAll (depth + 1) locals ++ body.outline (depth + 1)

def Expr.outlineAll (depth : Nat) : List Expr → List (Nat × Node)
  | [] => []
  | e :: es => e.outline depth ++ Expr.outlineAll depth es

def Local.outline (depth : Nat) (l : Local) : List (Nat × Node) :=
  (depth, .localVariable l) ::
    match l with
    | .initialized _ value => value.outline (depth + 1)
    | .slot _ => []

def Local.outlineAll (depth : Nat) : List Local → List (Nat × Node)
  | [] => []
  | l :: ls => l.outline depth ++ Local.outlineAll depth ls

end

def Prototype.outline (depth : Nat) (p : Prototype) : List (Nat × Node) :=
  (depth, .prototype p) :: p.parameters.map fun q => (depth + 1, .parameter q)

mutual

def Program.outline (depth : Nat) (u : Program) : List (Nat × Node) :=
  match u with
  | .root units span => (depth, .root units span) :: Program.outlineAll (depth + 1) units
  | .error d => [(depth, .expr (.error d))]
  | .prototype p => p.outline depth
  | .definition d =>
    (depth, .definition d) :: (d.signature.outline (depth + 1) ++ d.body.outline (depth + 1))
  | .expression e => e.outline depth

def Program.outlineAll (depth : Nat) : List Program → List (Nat × Node)
  | [] => []
  | u :: us => u.outline depth ++ Program.outlineAll depth us

end

end OpenExpr
