import OpenExpr.Resolution.Expression

namespace OpenExpr

/-- Resolution of whole statements: the environment that they change, and the
body in which the parts of the current one are resolved. -/
structure Resolver where
  env : Environment
  body : Body := {}

/-- Resolution of a statement. On failure the resolver stays as it was left. -/
abbrev ResolveUnit := EStateM Diagnostic Resolver

namespace ResolveUnit

/-- Resolves a part of the body in the environment as it is now. -/
def inBody {α : Type} (part : Environment → Resolve α) : ResolveUnit α := fun r =>
  match part r.env r.body with
  | .ok a body => .ok a { r with body }
  | .error d body => .error d { r with body }

/-- Undoes something if a part fails. -/
def onFailure {α : Type} (undo : Environment → Environment) (part : ResolveUnit α) :
    ResolveUnit α := fun r =>
  match part r with
  | .ok a r => .ok a r
  | .error d r => .error d { r with env := undo r.env }

def changeEnv (f : Environment → Environment) : ResolveUnit Unit :=
  modify fun r => { r with env := f r.env }

/-- Forgets the local variables of the function before. -/
def beginFunction : ResolveUnit Unit :=
  modify fun r => { r with body := { r.body with locals := [], results := 0 } }

/-- The local variables of the body, which are handed over to its function. -/
def takeLocals : ResolveUnit (List Local) :=
  modifyGet fun r => (r.body.locals, { r with body := { r.body with locals := [] } })

/-- The name of the function that a header introduces. -/
def prototypeName (t : SyntaxTree) : String :=
  match t.kind with
  | .unaryPrototype => unaryFunctionName t.text
  | .binaryPrototype => binaryFunctionName t.text
  | _ => t.text

def isPrototype (t : SyntaxTree) : Bool :=
  match t.kind with
  | .functionPrototype | .unaryPrototype | .binaryPrototype => true
  | _ => false

/-- The prototype that a header writes. -/
def prototypeOf (t : SyntaxTree) (isExternal : Bool) : Prototype :=
  { name := prototypeName t
    parameters := t.children.zipIdx.map fun (p, index) =>
      { name := p.text, index, span := p.span }
    isExternal
    isGenerated := false
    span := t.span }

/-- Declares the function of a header. A function that is declared keeps its
number of parameters. -/
def declare (t : SyntaxTree) (isExternal : Bool) : ResolveUnit Prototype := do
  unless isPrototype t do throw t.misplaced
  let p := prototypeOf t isExternal
  match (← get).env.declarations[p.name]? with
  | some previous =>
    unless previous.arity = p.arity do
      throw (Problem.incompatibleRedeclaration.diagnostic t.span)
  | none => pure ()
  changeEnv fun env => env.declare p
  return p

def externalDeclaration (t : SyntaxTree) : ResolveUnit Program :=
  match t.children with
  | [] => throw t.misplaced
  | header :: _ => return .prototype (← declare header true)

/-- A definition. Its function is declared before the body is resolved, so the
body may call it; if the body fails, what was declared before is put back. -/
def functionDefinition (t : SyntaxTree) : ResolveUnit Program := do
  beginFunction
  match t.children with
  | header :: bodyTree :: _ =>
    let name := prototypeName header
    let env := (← get).env
    if env.options.isStrict && env.definitions.contains name then
      throw ((Problem.redefinition name).diagnostic header.span)
    let signature ← declare header false
    let body ← onFailure (fun e => e.restoreDeclaration name env.declarations[name]?) <|
      inBody fun env => Resolve.inScope do
        Resolve.bindParameters signature.parameters
        Resolve.expr env bodyTree
    let d : FunctionDefinition :=
      { signature, body, locals := ← takeLocals, isAnonymous := false, span := t.span }
    changeEnv fun env => env.define d
    return .definition d
  | _ => throw t.misplaced

/-- A bare expression, which becomes the body of a function without parameters.
It gets the name of that function before it is resolved. -/
def topLevelExpression (t : SyntaxTree) : ResolveUnit Program := do
  beginFunction
  let signature : Prototype :=
    { name := (← get).env.nextAnonymousName
      parameters := []
      isExternal := false
      isGenerated := true
      span := t.span }
  changeEnv Environment.countAnonymous
  match t.children with
  | [] => throw t.misplaced
  | bodyTree :: _ =>
    let body ← inBody fun env => Resolve.expr env bodyTree
    let d : FunctionDefinition :=
      { signature, body, locals := ← takeLocals, isAnonymous := true, span := t.span }
    changeEnv fun env => env.define d
    return .definition d

def statement (t : SyntaxTree) : ResolveUnit Program :=
  match t.kind with
  | .functionDefinition => functionDefinition t
  | .externalDeclaration => externalDeclaration t
  | .topLevelExpression => topLevelExpression t
  | _ => throw t.misplaced

end ResolveUnit

namespace Resolver

/-- Resolves one unit. A unit that fails becomes its diagnostic. -/
def unit (r : Resolver) (t : SyntaxTree) : Program × Resolver :=
  match ResolveUnit.statement t r with
  | .ok u r => (u, r)
  | .error d r => (.error d, r)

/-- Resolves units one after the other. None keeps the next from being resolved. -/
def units (r : Resolver) : List SyntaxTree → List Program × Resolver
  | [] => ([], r)
  | t :: ts =>
    let (u, r) := r.unit t
    let (us, r) := r.units ts
    (u :: us, r)

end Resolver

namespace Environment

/-- Resolves a whole tree: all units of a source, the unit of a single statement,
or a unit by itself. -/
def resolve (env : Environment) (t : SyntaxTree) : Program × Environment :=
  let r : Resolver := { env }
  match t.kind with
  | .fullSource =>
    let (us, r) := r.units t.children
    (.root us t.span, r.env)
  | .repl =>
    match t.children with
    | [] => (.error t.misplaced, env)
    | unit :: _ =>
      let (u, r) := r.unit unit
      (u, r.env)
  | _ =>
    let (u, r) := r.unit t
    (u, r.env)

/-- Resolves an expression by itself, with no name in scope. -/
def resolveExpression (env : Environment) (t : SyntaxTree) : Except Diagnostic Expr :=
  match Resolve.expr env t {} with
  | .ok e _ => .ok e
  | .error d _ => .error d

end Environment

end OpenExpr
