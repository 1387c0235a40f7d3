import Mathlib.Logic.Function.Iterate
import OpenExpr.Proofs.Parse.Header

namespace OpenExpr

open Parse

namespace Grammar

variable (g : Grammar)

theorem steady_iterate (e : Int32 → Parse SyntaxTree) (n : Nat) (power : Int32) :
    Steady n (g.exprWith^[n + 1] e power) (g.expr power) := by
  induction n generalizing power with
  | zero =>
    have deepest (s : TokenStream) (atEnd : s.pending = []) :
        g.exprWith^[0 + 1] e power s = .error s.unexpected s := g.exprWith_of_end power atEnd
    refine steady_zero (fun s atEnd => ?_) (fun s atEnd => ?_) (fun s atEnd => ?_)
    · rw [deepest s atEnd, expr_eq, g.exprWith_of_end power atEnd]
    · rw [deepest s atEnd]
      exact ⟨atEnd, rfl⟩
    · rw [deepest s atEnd]
      exact (steady_unexpected (α := SyntaxTree) 0).patient s atEnd
  | succ n ih =>
    rw [Function.iterate_succ_apply', expr_eq]
    exact g.steady_exprWith ih power

variable {g}

/-- Expressions nest no deeper than there are tokens: what a reader below that would do
has no say. -/
theorem iterate_exprWith {s : TokenStream} {depth : Nat} (deep : s.pending.length < depth)
    (e : Int32 → Parse SyntaxTree) (power : Int32) :
    g.exprWith^[depth] e power s = g.expr power s := by
  obtain ⟨n, rfl⟩ := Nat.exists_eq_add_of_le' (Nat.one_le_of_lt deep)
  exact (g.steady_iterate e n power).eq (Nat.le_of_lt_succ deep)

variable (g)

/-- No reading is cut short by its budget. Expressions nest no deeper than there are tokens,
and each loop is over by the time the tokens are. -/
structure Unbudgeted : Prop where
  nesting : ∀ (e : Int32 → Parse SyntaxTree) power s depth, s.pending.length < depth →
    g.exprWith^[depth] e power s = g.expr power s
  operators : ∀ power s budget, s.pending.length ≤ budget →
    g.operatorTail g.expr power budget s = g.applications power s
  arguments : ∀ s budget, s.pending.length ≤ budget →
    commaSeparated (g.expr 0) budget s = commaSeparated (g.expr 0) s.pending.length s
  initializers : ∀ s budget, s.pending.length ≤ budget →
    commaSeparated (initializer g.expr) budget s =
      commaSeparated (initializer g.expr) s.pending.length s
  names : ∀ s budget, s.pending.length ≤ budget →
    parameters budget s = parameters s.pending.length s

theorem unbudgeted : g.Unbudgeted where
  nesting e power _ _ deep := iterate_exprWith deep e power
  operators power _ _ enough := g.operatorTail_eq_applications power enough
  arguments _ _ enough :=
    (steady_commaSeparated (g.steady_expr _ 0) _ (Nat.le_refl _) _ _ enough (Nat.le_refl _)).eq
      (Nat.le_refl _)
  initializers _ _ enough :=
    (steady_commaSeparated (steady_initializer (g.steady_expr _)) _ (Nat.le_refl _) _ _ enough
      (Nat.le_refl _)).eq (Nat.le_refl _)
  names s _ enough :=
    (steady_parameters _ _ _ enough (Nat.le_refl _)).eq (Nat.le_refl s.pending.length)

end Grammar

end OpenExpr
