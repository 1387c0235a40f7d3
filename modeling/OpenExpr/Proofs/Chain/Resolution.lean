import OpenExpr.Proofs.Chain.Grouping
import OpenExpr.Proofs.TwoRuns
import OpenExpr.Resolution.Expression

namespace OpenExpr

/-- An infix operator of a chain and the operand behind it: the token of the operator
with what the table says of it, the tokens of the operand and the tree they are read as. -/
structure Link where
  operator : Token
  meaning : Operator
  operand : List Token
  tree : SyntaxTree

/-- The operators of a chain behind what stands on their left, as they are nested in a
syntax tree: those that belong to the operand of an earlier one are below its node. -/
inductive Arranges : Grouping Link → List (Token × SyntaxTree) → List Link → Grouping Link → Prop
  | nil {left} : Arranges left [] [] left
  | cons {left l inner links right span text rest more whole} :
      Arranges .operand inner links right →
      Arranges (.application left l right) rest more whole →
      Arranges left
        ((l.operator, { kind := .expression, span, text, children := [l.tree], operators := inner }) ::
          rest)
        (l :: (links ++ more)) whole

theorem Arranges.operators_eq {left whole : Grouping Link} {operators : List (Token × SyntaxTree)}
    {links : List Link} (arranges : Arranges left operators links whole) :
    whole.operators = left.operators ++ links := by
  induction arranges with
  | nil => simp
  | cons _ _ inner outer =>
    rw [outer, Grouping.operators, inner]
    simp [Grouping.operators]

/-- The symbol of the operator is in the table, and so is its function if it needs one. -/
structure Link.IsKnown (env : Environment) (l : Link) (symbol : Char) : Prop where
  operator : l.operator.symbol? = some symbol
  known : (env.operators.infixOp? symbol).isSome = true
  callee : BuiltIn.ofSymbol? symbol = none →
    (env.callee? (binaryFunctionName l.operator.text)).isSome = true

/-- The expression that applies the operators to the operands as they are grouped. A
built-in operator is a node of its own, any other a call of its function. -/
inductive Applies (env : Environment) : Grouping Link → List Expr → Expr → Prop
  | operand {e} : Applies env .operand [e] e
  | builtIn {left l right es es' e e' symbol op} : l.operator.symbol? = some symbol →
      BuiltIn.ofSymbol? symbol = some op → Applies env left es e → Applies env right es' e' →
      Applies env (.application left l right) (es ++ es') (.builtIn op e e' (e.span.upTo e'.span))
  | call {left l right es es' e e' symbol callee} : l.operator.symbol? = some symbol →
      BuiltIn.ofSymbol? symbol = none →
      env.callee? (binaryFunctionName l.operator.text) = some callee →
      Applies env left es e → Applies env right es' e' →
      Applies env (.application left l right) (es ++ es')
        (.call callee [e, e'] (e.span.upTo e'.span))

namespace Resolve

variable {env : Environment}

theorem exprs_append (ts us : List SyntaxTree) :
    exprs env (ts ++ us) = do
      let es ← exprs env ts
      let es' ← exprs env us
      return es ++ es' := by
  induction ts with
  | nil => simp [exprs]
  | cons t ts ih => simp [exprs, ih]

/-- Both resolutions succeed with related values or fail with the same diagnostic, in
the same body. -/
abbrev Mirrors {α β : Type} (R : α → β → Prop) (p : Resolve α) (q : Resolve β) : Prop :=
  Related Eq Eq R p q

theorem mirrors_refl {α : Type} (p : Resolve α) : Mirrors Eq p p := by
  rintro b _ rfl
  cases p b <;> exact ⟨rfl, rfl⟩

theorem apply_of_isKnown {l : Link} {symbol : Char} (known : l.IsKnown env symbol)
    {left right : Grouping Link} {es es' : List Expr} {e e' : Expr} (first : Applies env left es e)
    (second : Applies env right es' e') :
    ∃ whole, apply env e l.operator e' = pure whole ∧
      Applies env (.application left l right) (es ++ es') whole := by
  unfold apply
  rw [known.operator]
  cases builtIn : BuiltIn.ofSymbol? symbol with
  | some op =>
    simp only [Option.getD_some, builtIn]
    exact ⟨_, rfl, .builtIn known.operator builtIn first second⟩
  | none =>
    obtain ⟨callee, found⟩ := Option.isSome_iff_exists.mp (known.callee builtIn)
    obtain ⟨op, meaning⟩ := Option.isSome_iff_exists.mp known.known
    simp only [Option.getD_some, builtIn, meaning, found]
    exact ⟨_, rfl, .call known.operator builtIn found first second⟩

/-- An operand is resolved before the operators that follow it are applied to it. -/
theorem expr_of_applyAll {whole : Grouping Link} {operators : List (Token × SyntaxTree)}
    {ts : List SyntaxTree} (others : ∀ x, Mirrors (fun es e => Applies env whole ([x] ++ es) e)
      (exprs env ts) (applyAll env x operators)) (operand : SyntaxTree) (span : Span)
    (text : String) :
    Mirrors (Applies env whole) (exprs env (operand :: ts))
      (expr env { kind := .expression, span, text, children := [operand], operators }) := by
  rw [exprs, expr]
  refine (mirrors_refl (expr env operand)).bind fun x _ same => ?_
  subst same
  rw [← bind_pure (applyAll env x operators)]
  exact (others x).bind fun es e applies => related_pure applies

/-- The operands are resolved from left to right and nothing else can fail. -/
theorem applyAll_of_arranges {left whole : Grouping Link} {operators : List (Token × SyntaxTree)}
    {links : List Link} (arranges : Arranges left operators links whole)
    (known : ∀ l ∈ links, ∃ symbol, l.IsKnown env symbol) {es : List Expr} {e : Expr}
    (first : Applies env left es e) :
    Mirrors (fun es' e' => Applies env whole (es ++ es') e') (exprs env (links.map Link.tree))
      (applyAll env e operators) := by
  induction arranges generalizing es e with
  | nil =>
    refine related_pure ?_
    simpa using first
  | @cons left l inner links right span text rest more whole _ _ ihInner ihRest =>
    have operand := expr_of_applyAll
      (fun x => ihInner (fun l member => known l (by simp [member])) (.operand (e := x)))
      l.tree span text
    obtain ⟨symbol, isKnown⟩ := known l (by simp)
    rw [List.map_cons, List.map_append, ← List.cons_append, exprs_append, applyAll]
    refine operand.bind fun es' e' second => ?_
    obtain ⟨both, run, applies⟩ := apply_of_isKnown isKnown first second
    rw [run, pure_bind, ← bind_pure (applyAll env both rest)]
    refine (ihRest (fun l member => known l (by simp [member])) applies).bind fun es'' e'' all => ?_
    refine related_pure ?_
    rwa [← List.append_assoc]

/-- An expression is resolved by resolving the operands of its chain in their order. -/
theorem expr_of_arranges {whole : Grouping Link} {operators : List (Token × SyntaxTree)}
    {links : List Link} (arranges : Arranges .operand operators links whole)
    (known : ∀ l ∈ links, ∃ symbol, l.IsKnown env symbol) (operand : SyntaxTree) (span : Span)
    (text : String) :
    Mirrors (Applies env whole) (exprs env (operand :: links.map Link.tree))
      (expr env { kind := .expression, span, text, children := [operand], operators }) :=
  expr_of_applyAll (fun _ => applyAll_of_arranges arranges known .operand) operand span text

end Resolve

end OpenExpr
