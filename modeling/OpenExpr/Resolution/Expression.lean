import OpenExpr.Environment
import OpenExpr.Program.Display
import OpenExpr.Resolution.Problem
import OpenExpr.Scopes

namespace OpenExpr

/-- The name of the function behind a prefix operator. -/
def unaryFunctionName (operator : String) : String :=
  "unary-op$" ++ operator

/-- The name of the function behind an infix operator. -/
def binaryFunctionName (operator : String) : String :=
  "binary-op$" ++ operator

/-- The body of a function as far as it has been resolved: the names in scope,
the local variables declared so far in their order, and how many conditionals
have got a variable for their result. -/
structure Body where
  scopes : Scopes Binding := {}
  locals : List Local := []
  results : Nat := 0

/-- Resolution of a part of a body. On failure the body stays as it was left. -/
abbrev Resolve := EStateM Diagnostic Body

namespace Resolve

/-- Resolves a part in a scope of its own, which is closed whatever comes of it. -/
def inScope {α : Type} (part : Resolve α) : Resolve α := fun b =>
  match part { b with scopes := b.scopes.push } with
  | .ok a b => .ok a { b with scopes := b.scopes.pop }
  | .error d b => .error d { b with scopes := b.scopes.pop }

/-- Binds the parameters of a function. Of equal names the last one counts. -/
def bindParameters (ps : List Parameter) : Resolve Unit :=
  modify fun b =>
    { b with scopes := ps.foldl (fun s p => s.insert p.name (.given p)) b.scopes }

/-- Declares a local variable in the innermost scope. -/
def declare (l : Local) : Resolve Unit :=
  modify fun b =>
    { b with
      scopes := b.scopes.insert l.name (.declared l.declared)
      locals := b.locals ++ [l] }

/-- Declares the variable for the result of a conditional. Its name is one that
cannot be written. -/
def declareResult (span : Span) : Resolve Local := do
  let n := (← get).results
  let l : Local := .slot { name := "$ifresult$" ++ toString n, isGenerated := true, span }
  modify fun b => { b with results := n + 1 }
  declare l
  return l

variable (env : Environment)

/-- The application of an operator to two operands. An operator that is not built
in has to be in the table and to have a function. -/
def apply (left : Expr) (operator : Token) (right : Expr) : Resolve Expr :=
  let span := left.span.upTo right.span
  let symbol := operator.symbol?.getD '\x00'
  match BuiltIn.ofSymbol? symbol with
  | some op => return .builtIn op left right span
  | none =>
    match env.operators.infixOp? symbol with
    | none => throw ((Problem.notBinaryOperator operator.text).diagnostic operator.span)
    | some _ =>
      let name := binaryFunctionName operator.text
      match env.callee? name with
      | none => throw ((Problem.missingBinaryFunction name).diagnostic operator.span)
      | some callee => return .call callee [left, right] span

/-- The function behind a prefix operator, which has to be in the table. -/
def unaryCallee (symbol : Char) (text : String) (span : Span) : Resolve Prototype :=
  match env.operators.prefixOp? symbol with
  | none => throw ((Problem.notUnaryOperator text).diagnostic span)
  | some _ =>
    let name := unaryFunctionName text
    match env.callee? name with
    | none => throw ((Problem.missingUnaryFunction name).diagnostic span)
    | some callee => return callee

def reference (name : String) (span : Span) : Resolve Expr := do
  match (← get).scopes.find? name with
  | some binding => return .reference binding span
  | none => throw ((Problem.unknownVariable name).diagnostic span)

mutual

/-- Resolves an expression. Its parts are resolved in the order of the source,
and the first diagnostic takes the place of the whole. -/
def expr (t : SyntaxTree) : Resolve Expr :=
  match t with
  | { kind, span, text, children, operators } =>
    match kind with
    | .expression =>
      match children with
      | [] => throw t.misplaced
      | operand :: _ => do
        let left ← expr operand
        applyAll left operators
    | .paren =>
      match children with
      | [] => throw t.misplaced
      | inner :: _ => expr inner
    | .constant =>
      match Decimal.float? text with
      | some value => return .constant value span
      | none => throw ((Problem.invalidNumber text).diagnostic span)
    | .reference => reference text span
    | .functionCall =>
      match env.callee? text with
      | none => throw ((Problem.unknownFunction text).diagnostic span)
      | some callee => do
        let arguments ← exprs children
        return .call callee arguments span
    | .unaryOperator => do
      let callee ← unaryCallee env (t.symbol?.getD '\x00') text span
      match children with
      | [] => throw t.misplaced
      | operand :: _ =>
        let argument ← expr operand
        return .call callee [argument] span
    | .conditional =>
      match children with
      | [] => throw t.misplaced
      | first :: rest => do
        let condition ← expr first
        match rest with
        | [] => throw t.misplaced
        | second :: rest =>
          let thenBranch ← expr second
          match rest with
          | [] => throw t.misplaced
          | third :: _ =>
            let elseBranch ← expr third
            let result ← declareResult span
            return .conditional condition thenBranch elseBranch result span
    | .forLoop =>
      match children with
      | [] => throw t.misplaced
      | first :: rest => do
        -- the start value does not see the loop variable
        let counter ← initializer first
        inScope do
          declare counter
          match rest with
          | [] => throw t.misplaced
          | second :: rest =>
            let condition ← expr second
            match rest with
            | [] => throw t.misplaced
            | [last] =>
              let body ← expr last
              return .forLoop counter condition (.constant 1 .null) body span
            | third :: last :: _ =>
              let step ← expr third
              let body ← expr last
              return .forLoop counter condition step body span
    | .varIn => do
      let (locals, body) ← inScope (bindings t.misplaced children)
      return .varIn locals body span
    | _ => throw t.misplaced

def exprs : List SyntaxTree → Resolve (List Expr)
  | [] => return []
  | t :: ts => do
    let e ← expr t
    let es ← exprs ts
    return e :: es

/-- Applies operators to what stands on their left, from left to right. Operators
that bind tighter are already nested in the operands on the right. -/
def applyAll (left : Expr) : List (Token × SyntaxTree) → Resolve Expr
  | [] => return left
  | (operator, operand) :: rest => do
    let right ← expr operand
    let left ← apply env left operator right
    applyAll left rest

/-- A variable with its first value, which is zero where none is written. -/
def initializer (t : SyntaxTree) : Resolve Local :=
  match t with
  | { kind, span, text, children, .. } =>
    if kind = .initializer then
      let declared : Variable := { name := text, isGenerated := false, span }
      match children with
      | [] => return .initialized declared (.constant 0 span)
      | value :: _ => do
        let value ← expr value
        return .initialized declared value
    else
      throw t.misplaced

/-- Variables, each of which sees those before it, and at the end the body, which
sees them all. -/
def bindings (missing : Diagnostic) : List SyntaxTree → Resolve (List Local × Expr)
  | [] => throw missing
  | [last] => do
    let body ← expr last
    return ([], body)
  | first :: next :: rest => do
    let l ← initializer first
    declare l
    let (locals, body) ← bindings missing (next :: rest)
    return (l :: locals, body)

end

end Resolve

end OpenExpr
