import OpenExpr.Program.Node
import OpenExpr.Proofs.Span.Row

namespace OpenExpr

namespace Node

/-- All spans that a node has: its own, and those of the variables that it holds besides the
nodes below it. -/
def spans : Node → List Span
  | definition d => d.span :: d.locals.map Local.span
  | expr (.reference binding span) => [span, binding.span]
  | expr (.conditional _ _ _ result span) => [span, result.span]
  | n => [n.span]

/-- The nodes below a node that were written. A step that was left out of a loop is not. -/
def written : Node → List Node
  | expr (.forLoop counter condition step body _) =>
    [localVariable counter, expr condition] ++ (if step.span = .null then [] else [expr step]) ++ [expr body]
  | n => n.children

/-- The only step of a loop with no place in the source is the one that is taken where none
was written. -/
def FillsStep : Node → Prop
  | expr (.forLoop _ _ step _ _) => step.span = .null → step = .constant 1 .null
  | _ => True

/-- Whether the node is the function of a bare expression, which has no header in the source. -/
def isAnonymous : Node → Bool
  | definition d => d.isAnonymous
  | _ => false

/-- The node is inside the source and the nodes below it are inside the node. Where they were
written one by one they are apart, in the order of the source. -/
structure Nests (size : Nat) (n : Node) : Prop where
  inside : ∀ s ∈ n.spans, s.Within 0 size
  fillsStep : n.FillsStep
  within : ∀ c ∈ n.written, c.span.Within n.span.lower n.span.upper
  apart : n.isAnonymous = false →
    (n.written.map Node.span).Pairwise fun s t => s.upper ≤ t.lower

variable {size : Nat} {n : Node}

theorem nests_of_row (inside : ∀ s ∈ n.spans, s.Within 0 size) (fillsStep : n.FillsStep)
    (row : Span.Row n.span.lower n.span.upper (n.written.map Node.span)) : n.Nests size where
  inside := inside
  fillsStep := fillsStep
  within _ member := row.within _ (List.mem_map_of_mem member)
  apart _ := row.pairwise

theorem nests_of_span (single : n.spans = [n.span]) (inside : n.span.Within 0 size)
    (fillsStep : n.FillsStep)
    (row : Span.Row n.span.lower n.span.upper (n.written.map Node.span)) : n.Nests size :=
  nests_of_row (by simpa [single] using inside) fillsStep row

theorem map_span_expr (es : List Expr) : (es.map expr).map Node.span = es.map Expr.span := by
  rw [List.map_map]
  rfl

theorem map_span_localVariable (ls : List Local) :
    (ls.map localVariable).map Node.span = ls.map Local.span := by
  rw [List.map_map]
  rfl

theorem map_span_written_forLoop (counter : Local) (condition step body : Expr) (span : Span) :
    (written (.expr (.forLoop counter condition step body span))).map Node.span =
      [counter.span, condition.span] ++ (if step.span = .null then [] else [step.span]) ++ [body.span] := by
  rw [written]
  by_cases missing : step.span = .null
  · rw [if_pos missing, if_pos missing]
    rfl
  · rw [if_neg missing, if_neg missing]
    rfl

end Node

/-- So is every node of the expression. -/
def Expr.Nests (size : Nat) (e : Expr) : Prop :=
  ∀ depth, ∀ p ∈ e.outline depth, p.2.Nests size

def Local.Nests (size : Nat) (l : Local) : Prop :=
  ∀ depth, ∀ p ∈ l.outline depth, p.2.Nests size

/-- The expression nests and takes no more than its place in the source. -/
structure Expr.Fits (size : Nat) (place : Span) (e : Expr) : Prop where
  span : e.span.Within place.lower place.upper
  nests : e.Nests size

structure Local.Fits (size : Nat) (place : Span) (l : Local) : Prop where
  span : l.span.Within place.lower place.upper
  nests : l.Nests size

variable {size : Nat} {span place : Span}

namespace Expr

theorem Fits.mono {outer : Span} {e : Expr} (h : e.Fits size place)
    (inner : place.Within outer.lower outer.upper) : e.Fits size outer :=
  ⟨h.span.mono inner.lower inner.upper, h.nests⟩

theorem nests_outlineAll {es : List Expr} (each : ∀ e ∈ es, e.Nests size) (depth : Nat) :
    ∀ p ∈ Expr.outlineAll depth es, p.2.Nests size := by
  induction es with
  | nil => simp [Expr.outlineAll]
  | cons e es ih =>
    obtain ⟨first, others⟩ := List.forall_mem_cons.mp each
    rw [Expr.outlineAll]
    exact List.forall_mem_append.mpr ⟨first depth, ih others⟩

theorem nests_constant (inside : span.Within 0 size) (value : Float) : (constant value span).Nests size := by
  intro depth p member
  obtain rfl := List.mem_singleton.mp member
  exact Node.nests_of_span rfl inside trivial inside.forward

theorem nests_reference (inside : span.Within 0 size) {binding : Binding}
    (known : binding.span.Within 0 size) : (reference binding span).Nests size := by
  intro depth p member
  obtain rfl := List.mem_singleton.mp member
  exact Node.nests_of_row (by simpa [Node.spans] using ⟨inside, known⟩) trivial inside.forward

theorem nests_call (inside : span.Within 0 size) (callee : Prototype) {arguments : List Expr}
    (row : Span.Row span.lower span.upper (arguments.map Expr.span))
    (each : ∀ a ∈ arguments, a.Nests size) : (call callee arguments span).Nests size := by
  intro depth p member
  rw [outline, List.mem_cons] at member
  rcases member with rfl | below
  · exact Node.nests_of_span rfl inside trivial ((Node.map_span_expr arguments).symm ▸ row)
  · exact nests_outlineAll each _ p below

theorem nests_builtIn (inside : span.Within 0 size) (op : BuiltIn) {left right : Expr}
    (row : Span.Row span.lower span.upper [left.span, right.span]) (first : left.Nests size)
    (second : right.Nests size) : (builtIn op left right span).Nests size := by
  intro depth p member
  rw [outline, List.mem_cons, List.mem_append] at member
  rcases member with rfl | below | below
  · exact Node.nests_of_span rfl inside trivial row
  · exact first _ p below
  · exact second _ p below

theorem nests_conditional (inside : span.Within 0 size) {condition thenBranch elseBranch : Expr}
    {result : Local} (same : result.span = span)
    (row : Span.Row span.lower span.upper [condition.span, thenBranch.span, elseBranch.span])
    (first : condition.Nests size) (second : thenBranch.Nests size) (third : elseBranch.Nests size) :
    (conditional condition thenBranch elseBranch result span).Nests size := by
  intro depth p member
  simp only [outline, List.mem_cons, List.mem_append] at member
  rcases member with rfl | (below | below) | below
  · exact Node.nests_of_row (by simpa [Node.spans, same] using inside) trivial row
  · exact first _ p below
  · exact second _ p below
  · exact third _ p below

theorem nests_forLoop (inside : span.Within 0 size) {counter : Local} {condition step body : Expr}
    (fillsStep : step.span = .null → step = .constant 1 .null)
    (row : Span.Row span.lower span.upper
      ([counter.span, condition.span] ++ (if step.span = .null then [] else [step.span]) ++ [body.span]))
    (first : counter.Nests size) (second : condition.Nests size) (third : step.Nests size)
    (last : body.Nests size) : (forLoop counter condition step body span).Nests size := by
  intro depth p member
  simp only [outline, List.mem_cons, List.mem_append] at member
  rcases member with rfl | ((below | below) | below) | below
  · exact Node.nests_of_span rfl inside fillsStep ((Node.map_span_written_forLoop ..).symm ▸ row)
  · exact first _ p below
  · exact second _ p below
  · exact third _ p below
  · exact last _ p below

end Expr

namespace Local

theorem nests_outlineAll {ls : List Local} (each : ∀ l ∈ ls, l.Nests size) (depth : Nat) :
    ∀ p ∈ Local.outlineAll depth ls, p.2.Nests size := by
  induction ls with
  | nil => simp [Local.outlineAll]
  | cons l ls ih =>
    obtain ⟨first, others⟩ := List.forall_mem_cons.mp each
    rw [Local.outlineAll]
    exact List.forall_mem_append.mpr ⟨first depth, ih others⟩

theorem nests_initialized {declared : Variable} (inside : declared.span.Within 0 size) {value : Expr}
    (fits : value.Fits size declared.span) : (initialized declared value).Nests size := by
  intro depth p member
  rw [outline, List.mem_cons] at member
  rcases member with rfl | below
  · exact Node.nests_of_span rfl inside trivial fits.span.row
  · exact fits.nests _ p below

end Local

theorem Expr.nests_varIn (inside : span.Within 0 size) {locals : List Local} {body : Expr}
    (row : Span.Row span.lower span.upper (locals.map Local.span ++ [body.span]))
    (each : ∀ l ∈ locals, l.Nests size) (last : body.Nests size) :
    (varIn locals body span).Nests size := by
  intro depth p member
  rw [outline, List.mem_cons, List.mem_append] at member
  rcases member with rfl | below | below
  · refine Node.nests_of_span rfl inside trivial ?_
    rw [Node.written, Node.children, List.map_append, Node.map_span_localVariable]
    · exact row
    · simp
  · exact Local.nests_outlineAll each _ p below
  · exact last _ p below

end OpenExpr
