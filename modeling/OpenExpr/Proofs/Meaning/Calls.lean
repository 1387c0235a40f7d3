import OpenExpr.Proofs.Scoping.Form

namespace OpenExpr

/-- A place of a text that calls a function, by its name with so many arguments or by an
operator that is not built in. -/
inductive CallSite where
  | function (name : String) (arguments : Nat)
  | infixOp (text : String)
  | prefixOp (text : String)
deriving DecidableEq, Repr

namespace CallSite

/-- The name of the function that is called. -/
def functionName : CallSite → String
  | function name _ => name
  | infixOp text => binaryFunctionName text
  | prefixOp text => unaryFunctionName text

def arguments : CallSite → Nat
  | function _ n => n
  | infixOp _ => 2
  | prefixOp _ => 1

/-- The call is one that a source can write. -/
def IsWritten : CallSite → Prop
  | function name _ => IsPlain name
  | infixOp text => ∃ c, text.toList = [c] ∧ c.isDigit = false ∧ BuiltIn.ofSymbol? c = none
  | prefixOp text => IsSign text

end CallSite

namespace SyntaxTree

/-- What a node calls by itself. -/
def Kind.calls (kind : Kind) (text : String) (parts : Nat) : List CallSite :=
  match kind with
  | .functionCall => [.function text parts]
  | .unaryOperator => [.prefixOp text]
  | _ => []

/-- What an operator between operands calls. -/
def operatorCalls (operator : Token) : List CallSite :=
  if (operator.symbol?.bind BuiltIn.ofSymbol?).isSome then [] else [.infixOp operator.text]

mutual

/-- The calls in a tree, each behind those in its arguments. -/
def calls (t : SyntaxTree) : List CallSite :=
  match t with
  | { kind, text, children, operators, .. } =>
    callsAll children ++ kind.calls text children.length ++ callsOperators operators

def callsAll : List SyntaxTree → List CallSite
  | [] => []
  | t :: ts => t.calls ++ callsAll ts

def callsOperators : List (Token × SyntaxTree) → List CallSite
  | [] => []
  | (operator, t) :: rest => t.calls ++ operatorCalls operator ++ callsOperators rest

end

/-- The calls in the body of a statement, if it has one. -/
def bodyCalls (t : SyntaxTree) : List CallSite :=
  match t.kind, t.children with
  | .functionDefinition, _ :: body :: _ | .topLevelExpression, body :: _ => body.calls
  | _, _ => []

theorem callsAll_append (ts us : List SyntaxTree) : callsAll (ts ++ us) = callsAll ts ++ callsAll us := by
  induction ts with
  | nil => rfl
  | cons t ts ih => rw [List.cons_append, callsAll, callsAll, ih, List.append_assoc]

theorem forall_mem_callsAll {P : CallSite → Prop} {ts : List SyntaxTree} :
    (∀ site ∈ callsAll ts, P site) ↔ ∀ t ∈ ts, ∀ site ∈ t.calls, P site := by
  induction ts with
  | nil => simp [callsAll]
  | cons t ts ih => rw [callsAll, List.forall_mem_append, List.forall_mem_cons, ih]

end SyntaxTree

mutual

/-- The calls in an expression, each behind those in its arguments: the function and how
many arguments it gets. -/
def Expr.calls : Expr → List (Prototype × Nat)
  | .constant _ _ | .reference _ _ | .error _ => []
  | .call callee arguments _ => Expr.callsAll arguments ++ [(callee, arguments.length)]
  | .builtIn _ left right _ => left.calls ++ right.calls
  | .conditional condition thenBranch elseBranch result _ =>
    condition.calls ++ thenBranch.calls ++ elseBranch.calls ++ result.calls
  | .forLoop counter condition step body _ =>
    counter.calls ++ condition.calls ++ step.calls ++ body.calls
  | .varIn locals body _ => Local.callsAll locals ++ body.calls

def Expr.callsAll : List Expr → List (Prototype × Nat)
  | [] => []
  | e :: es => e.calls ++ Expr.callsAll es

def Local.calls : Local → List (Prototype × Nat)
  | .initialized _ value => value.calls
  | .slot _ => []

def Local.callsAll : List Local → List (Prototype × Nat)
  | [] => []
  | l :: ls => l.calls ++ Local.callsAll ls

end

namespace Grammar

open SyntaxTree

theorem isWritten_operatorCalls {operator : Token} (kind : operator.kind = .operator)
    (sign : IsSign operator.text) : ∀ site ∈ operatorCalls operator, site.IsWritten := by
  obtain ⟨c, text, noDigit⟩ := sign
  have symbol : operator.symbol? = some c := by simp [Token.symbol?, kind, text]
  unfold operatorCalls
  rw [symbol, Option.bind_some]
  split
  · simp
  · rename_i free
    simpa [CallSite.IsWritten, text] using ⟨noDigit, by simpa using free⟩

theorem isWritten_callsOperators {operators : List (Token × SyntaxTree)}
    (tail : IsTail (fun t => ∀ site ∈ t.calls, site.IsWritten) operators) :
    ∀ site ∈ callsOperators operators, site.IsWritten := by
  induction operators with
  | nil => simp [callsOperators]
  | cons o rest ih =>
    obtain ⟨⟨⟨kind, sign⟩, operand⟩, others⟩ := List.forall_mem_cons.mp tail
    rw [callsOperators, List.forall_mem_append, List.forall_mem_append]
    exact ⟨⟨operand, isWritten_operatorCalls kind sign⟩, ih others⟩

theorem isWritten_initializer {t : SyntaxTree} (form : t.IsInitializer)
    (values : ∀ v ∈ t.children, ∀ site ∈ v.calls, site.IsWritten) :
    ∀ site ∈ t.calls, site.IsWritten := by
  obtain ⟨kind, span, text, children, operators⟩ := t
  obtain ⟨rfl, rfl, _⟩ := form
  simpa [calls, Kind.calls, callsOperators, forall_mem_callsAll] using values

/-- Whatever an expression calls, it calls by a plain name or by a sign. -/
theorem closes_isWritten (g : Grammar) : g.Closes fun t => ∀ site ∈ t.calls, site.IsWritten where
  chain operand tail := by
    simp only [calls, callsAll, Kind.calls, List.append_nil, List.forall_mem_append]
    exact ⟨operand, isWritten_callsOperators tail⟩
  paren inner := by simpa [calls, callsAll, callsOperators, Kind.calls] using inner
  constant _ := by simp [calls, callsAll, callsOperators, Kind.calls]
  reference _ := by simp [calls, callsAll, callsOperators, Kind.calls]
  call plain each := by
    have parts := forall_mem_callsAll.mpr each
    simp only [calls, callsOperators, Kind.calls, List.append_nil, List.forall_mem_append]
    exact ⟨parts, by simpa [CallSite.IsWritten] using plain⟩
  prefixed sign _ _ operand := by
    simp only [calls, callsAll, callsOperators, Kind.calls, List.append_nil, List.forall_mem_append]
    exact ⟨operand, by simpa [CallSite.IsWritten] using sign⟩
  conditional first second third := by
    simp only [calls, callsAll, callsOperators, Kind.calls, List.append_nil, List.forall_mem_append]
    exact ⟨first, second, third⟩
  loop value condition body := by
    simp only [calls, callsAll, callsOperators, Kind.calls, List.append_nil, List.forall_mem_append]
    exact ⟨value, condition, body⟩
  loopStep value condition step body := by
    simp only [calls, callsAll, callsOperators, Kind.calls, List.append_nil, List.forall_mem_append]
    exact ⟨value, condition, step, body⟩
  varIn initializers values body := by
    simp only [calls, callsAll, callsOperators, Kind.calls, List.append_nil, callsAll_append,
      List.forall_mem_append]
    exact ⟨forall_mem_callsAll.mpr fun i member => isWritten_initializer (initializers i member) (values i member),
      body⟩

end Grammar

end OpenExpr
