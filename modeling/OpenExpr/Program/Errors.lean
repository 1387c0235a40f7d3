import OpenExpr.Program.Basic

namespace OpenExpr

mutual

/-- The diagnostics that stand in an expression, in the order of the source. -/
def Expr.errors : Expr → List Diagnostic
  | .constant _ _ | .reference _ _ => []
  | .call _ arguments _ => Expr.errorsAll arguments
  | .builtIn _ left right _ => left.errors ++ right.errors
  | .conditional condition thenBranch elseBranch _ _ =>
    condition.errors ++ thenBranch.errors ++ elseBranch.errors
  | .forLoop counter condition step body _ =>
    counter.errors ++ condition.errors ++ step.errors ++ body.errors
  | .varIn locals body _ => Local.errorsAll locals ++ body.errors
  | .error diagnostic => [diagnostic]

def Expr.errorsAll : List Expr → List Diagnostic
  | [] => []
  | e :: es => e.errors ++ Expr.errorsAll es

def Local.errors : Local → List Diagnostic
  | .initialized _ value => value.errors
  | .slot _ => []

def Local.errorsAll : List Local → List Diagnostic
  | [] => []
  | l :: ls => l.errors ++ Local.errorsAll ls

end

mutual

/-- The diagnostics that stand anywhere in a program, in the order of the source. -/
def Program.errors : Program → List Diagnostic
  | .root units _ => Program.errorsAll units
  | .error diagnostic => [diagnostic]
  | .prototype _ => []
  | .definition d => d.body.errors
  | .expression e => e.errors

def Program.errorsAll : List Program → List Diagnostic
  | [] => []
  | u :: us => u.errors ++ Program.errorsAll us

end

theorem Program.errorsAll_append (us vs : List Program) :
    errorsAll (us ++ vs) = errorsAll us ++ errorsAll vs := by
  induction us with
  | nil => rfl
  | cons u us ih => rw [List.cons_append, errorsAll, errorsAll, ih, List.append_assoc]

theorem Program.mem_errorsAll {d : Diagnostic} {us : List Program} (member : .error d ∈ us) :
    d ∈ errorsAll us := by
  induction us with
  | nil => cases member
  | cons u us ih =>
    rw [errorsAll]
    rcases List.mem_cons.mp member with rfl | later
    · exact List.mem_append_left _ (List.mem_singleton_self d)
    · exact List.mem_append_right _ (ih later)

end OpenExpr
