import OpenExpr.Diagnostic
import OpenExpr.Operator

namespace OpenExpr

/-- A named value that a function is given, with its place among them. -/
structure Parameter where
  name : String
  index : Nat
  span : Span
deriving DecidableEq, Repr

/-- What a call has to know of a function. -/
structure Prototype where
  name : String
  parameters : List Parameter
  isExternal : Bool
  isGenerated : Bool
  span : Span
deriving DecidableEq, Repr

def Prototype.arity (p : Prototype) : Nat :=
  p.parameters.length

/-- A local variable as a reference sees it. -/
structure Variable where
  name : String
  isGenerated : Bool
  span : Span
deriving DecidableEq, Repr

/-- What a name in a body stands for. -/
inductive Binding where
  | given (parameter : Parameter)
  | declared (origin : Variable)
deriving DecidableEq, Repr

namespace Binding

def name : Binding → String
  | given p => p.name
  | declared v => v.name

def isGenerated : Binding → Bool
  | given _ => false
  | declared v => v.isGenerated

/-- The span of the place where the name is introduced. -/
def span : Binding → Span
  | given p => p.span
  | declared v => v.span

end Binding

mutual

/-- An expression whose names are resolved. User defined operators are calls. -/
inductive Expr where
  | constant (value : Float) (span : Span)
  | reference (binding : Binding) (span : Span)
  | call (callee : Prototype) (arguments : List Expr) (span : Span)
  | builtIn (op : BuiltIn) (left right : Expr) (span : Span)
  /-- Both branches leave their value in the local variable. -/
  | conditional (condition thenBranch elseBranch : Expr) (result : Local) (span : Span)
  | forLoop (counter : Local) (condition step body : Expr) (span : Span)
  | varIn (locals : List Local) (body : Expr) (span : Span)
  /-- Stands for a part that has no meaning. -/
  | error (diagnostic : Diagnostic)

/-- A local variable where it is declared, with its first value or without one. -/
inductive Local where
  | initialized (declared : Variable) (value : Expr)
  | slot (declared : Variable)

end

namespace Expr

def span : Expr → Span
  | constant _ s | reference _ s | call _ _ s | builtIn _ _ _ s | conditional _ _ _ _ s
  | forLoop _ _ _ _ s | varIn _ _ s => s
  | error d => d.span

end Expr

namespace Local

def declared : Local → Variable
  | initialized v _ => v
  | slot v => v

def value? : Local → Option Expr
  | initialized _ e => some e
  | slot _ => none

def name (l : Local) : String :=
  l.declared.name

def span (l : Local) : Span :=
  l.declared.span

end Local

/-- A function with its body and all local variables of the body, in the order
of their declarations. -/
structure FunctionDefinition where
  signature : Prototype
  body : Expr
  locals : List Local
  isAnonymous : Bool
  span : Span

def FunctionDefinition.name (d : FunctionDefinition) : String :=
  d.signature.name

/-- The meaning of a text: one unit, or a root that holds the units of a source. -/
inductive Program where
  | root (units : List Program) (span : Span)
  | error (diagnostic : Diagnostic)
  | prototype (p : Prototype)
  | definition (d : FunctionDefinition)
  | expression (e : Expr)

namespace Program

def span : Program → Span
  | root _ s => s
  | error d => d.span
  | prototype p => p.span
  | definition d => d.span
  | expression e => e.span

def isError : Program → Bool
  | error _ => true
  | _ => false

end Program

end OpenExpr
