import OpenExpr.Program.Node

namespace OpenExpr

/-- A way to go through a program. At each node it is given the action that goes
through the nodes below and joins their results, and may run it or not. -/
structure Visitor (m : Type → Type) (α : Type) where
  /-- The result of a node with nothing below it. -/
  empty : α
  /-- Joins what there is so far with the result of the next node. -/
  join : α → α → α
  visit : Node → m α → m α

namespace Visitor

variable {m : Type → Type} [Monad m] {α : Type} (v : Visitor m α)

mutual

def expr (e : Expr) : m α :=
  v.visit (.expr e) <|
    match e with
    | .constant _ _ | .reference _ _ | .error _ => pure v.empty
    | .call _ arguments _ => exprs v.empty arguments
    | .builtIn _ left right _ => do
      let a := v.join v.empty (← expr left)
      return v.join a (← expr right)
    | .conditional condition thenBranch elseBranch _ _ => do
      let a := v.join v.empty (← expr condition)
      let a := v.join a (← expr thenBranch)
      return v.join a (← expr elseBranch)
    | .forLoop counter condition step body _ => do
      let a := v.join v.empty (← localVariable counter)
      let a := v.join a (← expr condition)
      let a := v.join a (← expr step)
      return v.join a (← expr body)
    | .varIn locals body _ => do
      let a ← localVariables v.empty locals
      return v.join a (← expr body)

def exprs (a : α) : List Expr → m α
  | [] => pure a
  | e :: es => do exprs (v.join a (← expr e)) es

def localVariable (l : Local) : m α :=
  v.visit (.localVariable l) <|
    match l with
    | .initialized _ value => do return v.join v.empty (← expr value)
    | .slot _ => pure v.empty

def localVariables (a : α) : List Local → m α
  | [] => pure a
  | l :: ls => do localVariables (v.join a (← localVariable l)) ls

end

def prototype (p : Prototype) : m α :=
  v.visit (.prototype p) <|
    p.parameters.foldlM (fun a q => return v.join a (← v.visit (.parameter q) (pure v.empty))) v.empty

mutual

def program (u : Program) : m α :=
  match u with
  | .root units span => v.visit (.root units span) (programs v.empty units)
  | .error d => v.visit (.expr (.error d)) (pure v.empty)
  | .prototype p => v.prototype p
  | .definition d =>
    v.visit (.definition d) do
      let a := v.join v.empty (← v.prototype d.signature)
      return v.join a (← v.expr d.body)
  | .expression e => v.expr e

def programs (a : α) : List Program → m α
  | [] => pure a
  | u :: us => do programs (v.join a (← program u)) us

end

end Visitor

/-- The walk that records the errors it meets. It does not look below an error, and below
every other node it goes on as usual. -/
def collector : Visitor (StateM (List Diagnostic)) Unit where
  empty := ()
  join _ next := next
  visit
    | .expr (.error d), _ => modify (· ++ [d])
    | _, below => below

end OpenExpr
