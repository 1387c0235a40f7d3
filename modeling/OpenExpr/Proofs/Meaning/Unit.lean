import OpenExpr.Proofs.Growth.Unit
import OpenExpr.Proofs.Meaning.Expression

namespace OpenExpr

namespace Environment

/-- What a statement of a text means: its function has the header that is written, and its
body calls what it is written to call. A statement that has no meaning becomes a diagnostic
of that. -/
inductive Means (env : Environment) : SyntaxTree → Program → Prop
  | definition {span text header body d} :
      d.signature = ResolveUnit.prototypeOf header false →
      (env.declare (ResolveUnit.prototypeOf header false)).Answers body.calls d.body.calls →
      Means env { kind := .functionDefinition, span, text, children := [header, body] } (.definition d)
  | declaration {span text header} :
      Means env { kind := .externalDeclaration, span, text, children := [header] }
        (.prototype (ResolveUnit.prototypeOf header true))
  | bare {span text body d} : env.Answers body.calls d.body.calls →
      Means env { kind := .topLevelExpression, span, text, children := [body] } (.definition d)
  | refused {t d} : d.IsOfMeaning → Means env t (.error d)

end Environment

namespace ResolveUnit

variable {α : Type} {P : α → Prop} {r : Resolver}

theorem hasMeaning_inBody {part : Environment → Resolve α} (h : Meets P (part r.env)) :
    HasMeaning P (inBody part r) := by
  have inner := h r.body
  unfold inBody
  cases run : part r.env r.body <;> rw [run] at inner <;> exact inner

theorem hasMeaning_onFailure {undo : Environment → Environment} {part : ResolveUnit α}
    (h : HasMeaning P (part r)) : HasMeaning P (onFailure undo part r) := by
  unfold onFailure
  cases run : part r <;> rw [run] at h <;> exact h

theorem hasMeaning_declare {header : SyntaxTree} (form : isPrototype header = true)
    (isExternal : Bool) : HasMeaning (fun _ => True) (declare header isExternal r) := by
  by_cases accepted : r.env.AcceptsHeader header
  · rw [declare_ok form accepted]
    trivial
  · rw [declare_error form accepted]
    exact Problem.isOfMeaning rfl rfl

theorem hasMeaning_definition {span : Span} {text : String} {header body : SyntaxTree}
    (isHeader : isPrototype header = true) (form : body.IsExpr)
    (known : body.PrefixesIn r.env.operators) :
    let t : SyntaxTree := { kind := .functionDefinition, span, text, children := [header, body] }
    HasMeaning (r.env.Means t) (functionDefinition t r) := by
  unfold functionDefinition
  refine HasMeaning.bind (p := beginFunction) (P := fun _ => True) trivial fun _ r0 begun _ => ?_
  cases begun
  dsimp only
  rw [get_bind]
  split
  · exact Problem.isOfMeaning rfl rfl
  refine (hasMeaning_declare isHeader false).bind fun signature r1 declared _ => ?_
  obtain ⟨rfl, rfl⟩ := eq_of_declare_ok isHeader declared
  have inner : Meets (fun e => (r.env.declare (prototypeOf header false)).Answers body.calls e.calls)
      (Resolve.inScope do
        Resolve.bindParameters (prototypeOf header false).parameters
        Resolve.expr (r.env.declare (prototypeOf header false)) body) :=
    Resolve.meets_inScope (Meets.bind (P := fun _ => True) (fun _ => trivial) fun _ _ =>
      Resolve.isAnswered_expr form known)
  exact (hasMeaning_onFailure (hasMeaning_inBody inner)).bind fun e r2 _ answers =>
    .definition rfl answers

theorem hasMeaning_bare {span : Span} {text : String} {body : SyntaxTree} (form : body.IsExpr)
    (known : body.PrefixesIn r.env.operators) :
    let t : SyntaxTree := { kind := .topLevelExpression, span, text, children := [body] }
    HasMeaning (r.env.Means t) (topLevelExpression t r) := by
  unfold topLevelExpression
  refine HasMeaning.bind (p := beginFunction) (P := fun _ => True) trivial fun _ r0 begun _ => ?_
  cases begun
  rw [get_bind]
  refine HasMeaning.bind (p := changeEnv _) (P := fun _ => True) trivial fun _ r1 counted _ => ?_
  cases counted
  have inner : Meets (fun e => r.env.countAnonymous.Answers body.calls e.calls)
      (Resolve.expr r.env.countAnonymous body) := Resolve.isAnswered_expr form known
  exact (hasMeaning_inBody inner).bind fun e r2 _ answers => .bare answers

/-- What is read as a statement has the meaning that is written, or none. -/
theorem hasMeaning_statement {t : SyntaxTree} (form : t.IsUnit)
    (known : t.BodyPrefixesIn r.env.operators) : HasMeaning (r.env.Means t) (statement t r) := by
  cases form with
  | definition isHeader isExpr => exact hasMeaning_definition isHeader isExpr (known (by simp) _ rfl)
  | declaration isHeader =>
    refine (hasMeaning_declare isHeader true).bind fun p r' declared _ => ?_
    obtain ⟨rfl, _⟩ := eq_of_declare_ok isHeader declared
    exact .declaration
  | bare isExpr => exact hasMeaning_bare isExpr (known (by simp) _ rfl)

end ResolveUnit

theorem Resolver.means_unit {r : Resolver} {t : SyntaxTree} (form : t.IsUnit)
    (known : t.BodyPrefixesIn r.env.operators) : r.env.Means t (r.unit t).1 := by
  have meaning := ResolveUnit.hasMeaning_statement form known
  unfold unit
  cases run : ResolveUnit.statement t r with
  | ok u r' =>
    rw [run] at meaning
    exact meaning
  | error d r' =>
    rw [run] at meaning
    exact .refused meaning

end OpenExpr
