import OpenExpr.Proofs.Placement.Parse

namespace OpenExpr

open Parse

namespace Grammar

variable (g : Grammar) {e e' : Int32 → Parse SyntaxTree}

theorem blind_constant : Blind SyntaxTree.Alike constant constant := by
  refine blind_advance.bind fun t t' alike => related_ite (by rw [alike.text]) ?_ ?_
  · exact related_pure (alike.text ▸ .node trivial .nil .nil)
  · exact related_throw (by rw [alike.text])

/-- A name is the text of a reference, so it must be one that can be written. -/
theorem agree_nameOrCall (inner : ∀ power, Blind SyntaxTree.Alike (e power) (e' power))
    {s s' : TokenStream} (alike : s.Alike s') (name : s.current.kind = .identifier) :
    Agree TokenStream.Alike SameCause SyntaxTree.Alike (nameOrCall e s) (nameOrCall e' s') := by
  have same := alike.current
  have finish (arguments arguments' : List SyntaxTree)
      (related : SyntaxTree.AllAlike arguments arguments') :=
    (blind_expect .closeParen).bind fun _ _ _ => blind_node .functionCall
      s.current.span.start s'.current.span.start same.text trivial related
  unfold nameOrCall
  rw [bind_ok (advance_apply s), bind_ok (advance_apply s')]
  refine (blind_current.bind fun t t' next => related_ite (by rw [next.kind]) ?_ ?_) _ _ alike.advance
  · refine blind_advance.bind fun _ _ _ => blind_current.bind fun t t' next =>
      related_ite (by rw [next.kind]) ?_ ?_
    · exact (related_pure .nil).bind finish
    · refine blind_remaining.bind fun budget _ equal => ?_
      subst equal
      exact (blind_commaSeparated (inner 0) budget).bind finish
  · exact related_pure (same.text ▸ .node (same.plain name) .nil .nil)

theorem blind_parenthesised (inner : ∀ power, Blind SyntaxTree.Alike (e power) (e' power)) :
    Blind SyntaxTree.Alike (parenthesised e) (parenthesised e') :=
  blind_advance.bind fun _ _ _ => (inner 0).bind fun _ _ tree => (blind_expect _).bind fun _ _ _ =>
    blind_node _ _ _ rfl trivial (.one tree)

theorem blind_conditional (inner : ∀ power, Blind SyntaxTree.Alike (e power) (e' power)) :
    Blind SyntaxTree.Alike (conditional e) (conditional e') :=
  blind_advance.bind fun _ _ _ => (inner 0).bind fun _ _ first => (blind_expect _).bind fun _ _ _ =>
    (inner 0).bind fun _ _ second => (blind_expect _).bind fun _ _ _ =>
    (inner 0).bind fun _ _ third =>
    blind_node _ _ _ rfl trivial (.cons first (.cons second (.one third)))

theorem blind_forLoop (inner : ∀ power, Blind SyntaxTree.Alike (e power) (e' power)) :
    Blind SyntaxTree.Alike (forLoop e) (forLoop e') := by
  refine blind_advance.bind fun start start' _ => (blind_expect _).bind fun name name' sameName => ?_
  have body (initializer initializer' condition condition' : SyntaxTree) (step step' : List SyntaxTree)
      (first : initializer.Alike initializer') (second : condition.Alike condition')
      (third : SyntaxTree.AllAlike step step') :=
    (blind_expect (.keyword .inWord)).bind fun _ _ _ => (inner 0).bind fun body body' last =>
      blind_node .forLoop start.span.start start'.span.start (rfl : "" = "") trivial (.append (.append (.cons first (.one second)) third) (.one last))
  have value := blind_advance.bind fun _ _ _ => (inner 0).bind fun value value' same =>
    (blind_node .initializer name.span.start name'.span.start sameName.text trivial (.one same)).bind fun _ _ initializer =>
    (blind_expect .comma).bind fun _ _ _ => (inner 0).bind fun _ _ condition =>
    (blind_eat .comma).bind fun more more' eaten => related_ite
      (show more = true ↔ more' = true by rw [eaten])
      ((inner 0).bind fun step step' same => (related_pure (SyntaxTree.AllAlike.one same)).bind
        fun _ _ steps => body _ _ _ _ _ _ initializer condition steps)
      ((related_pure SyntaxTree.AllAlike.nil).bind
        fun _ _ steps => body _ _ _ _ _ _ initializer condition steps)
  refine blind_current.bind fun t t' alike => ?_
  exact related_ite (by rw [Token.isOperator, Token.isOperator, alike.symbol?]) value
    ((blind_unexpectedDetailed (R := fun _ _ => True) _).bind fun _ _ _ => value)

theorem blind_initializer (inner : ∀ power, Blind SyntaxTree.Alike (e power) (e' power)) :
    Blind SyntaxTree.Alike (initializer e) (initializer e') := by
  refine (blind_expect _).bind fun name name' sameName => blind_current.bind fun t t' alike => ?_
  have finish (value value' : List SyntaxTree) (same : SyntaxTree.AllAlike value value') :=
    blind_node .initializer name.span.start name'.span.start sameName.text trivial same
  refine related_ite (by rw [Token.isOperator, Token.isOperator, alike.symbol?]) ?_ ?_
  · exact blind_advance.bind fun _ _ _ => (inner 0).bind fun _ _ same =>
      (related_pure (SyntaxTree.AllAlike.one same)).bind finish
  · exact (related_pure SyntaxTree.AllAlike.nil).bind finish

theorem blind_varIn (inner : ∀ power, Blind SyntaxTree.Alike (e power) (e' power)) :
    Blind SyntaxTree.Alike (varIn e) (varIn e') := by
  refine blind_advance.bind fun _ _ _ => blind_remaining.bind fun budget _ same => ?_
  subst same
  exact (blind_commaSeparated (blind_initializer inner) budget).bind fun _ _ initializers =>
    (blind_expect _).bind fun _ _ _ => (inner 0).bind fun _ _ body =>
    blind_node _ _ _ rfl trivial (.append initializers (.one body))

theorem blind_primaryWith (inner : ∀ power, Blind SyntaxTree.Alike (e power) (e' power)) :
    Blind SyntaxTree.Alike (g.primaryWith e) (g.primaryWith e') := by
  intro s s' alike
  unfold primaryWith
  split
  · exact blind_unexpected s s' alike
  rw [bind_ok (current_apply s), bind_ok (current_apply s'), ← alike.current.kind]
  cases kind : s.current.kind with
  | number => exact blind_constant s s' alike
  | identifier => exact agree_nameOrCall inner alike kind
  | openParen => exact blind_parenthesised inner s s' alike
  | keyword word =>
    cases word with
    | ifWord => exact blind_conditional inner s s' alike
    | forWord => exact blind_forLoop inner s s' alike
    | varWord => exact blind_varIn inner s s' alike
    | _ => exact blind_unexpected s s' alike
  | _ => exact blind_unexpected s s' alike

theorem blind_operandWith (inner : ∀ power, Blind SyntaxTree.Alike (e power) (e' power)) :
    Blind SyntaxTree.Alike (g.operandWith e) (g.operandWith e') := by
  intro s s' alike
  have same := alike.current
  unfold operandWith
  rw [bind_ok (current_apply s), bind_ok (current_apply s'), ← same.symbol?]
  cases operator : s.current.symbol? with
  | none => exact g.blind_primaryWith inner s s' alike
  | some symbol =>
    dsimp only
    cases g.operators.prefixOp? symbol with
    | none => exact blind_unexpectedDetailed _ s s' alike
    | some op =>
      exact agree_advance alike ((inner _).bind fun _ _ operand =>
        blind_node _ _ _ same.text (same.sign (Token.kind_of_symbol? operator)) (.one operand))

theorem blind_operatorTail (inner : ∀ power, Blind SyntaxTree.Alike (e power) (e' power))
    (power : Int32) (budget : Nat) :
    Blind SyntaxTree.OperatorsAlike (g.operatorTail e power budget)
      (g.operatorTail e' power budget) := by
  induction budget with
  | zero => exact related_pure .nil
  | succ budget ih =>
    intro s s' alike
    have same := alike.current
    unfold operatorTail
    rw [bind_ok (current_apply s), bind_ok (current_apply s'), ← same.symbol?]
    cases operator : s.current.symbol? with
    | none => exact related_pure .nil s s' alike
    | some symbol =>
      dsimp only
      have operand := (inner (g.rightPower symbol)).bind fun _ _ operand =>
        ih.bind fun _ _ rest => related_pure (SyntaxTree.OperatorsAlike.cons same
          (Token.kind_of_symbol? operator) operand rest)
      have next : Agree TokenStream.Alike SameCause SyntaxTree.OperatorsAlike
          ((do
            let operator ← advance
            let operand ← e (g.rightPower symbol)
            return (operator, operand) :: (← g.operatorTail e power budget)) s)
          ((do
            let operator ← advance
            let operand ← e' (g.rightPower symbol)
            return (operator, operand) :: (← g.operatorTail e' power budget)) s') :=
        agree_advance alike operand
      split
      · exact related_pure .nil s s' alike
      · split
        · exact agree_requireLevel alike _ _ _ next
        · exact next

theorem blind_exprWith (inner : ∀ power, Blind SyntaxTree.Alike (e power) (e' power)) (power : Int32) :
    Blind SyntaxTree.Alike (g.exprWith e power) (g.exprWith e' power) := by
  refine blind_position.bind fun start start' _ => (g.blind_operandWith inner).bind
    fun _ _ operand => blind_remaining.bind fun budget _ equal => ?_
  subst equal
  exact (g.blind_operatorTail inner power budget).bind fun _ _ operators =>
    (blind_spanFrom start start').bind fun _ _ _ =>
    related_pure (.node trivial (.one operand) operators)

theorem blind_exprWithin (budget : Nat) (power : Int32) :
    Blind SyntaxTree.Alike (g.exprWithin budget power) (g.exprWithin budget power) := by
  induction budget generalizing power with
  | zero => exact blind_unexpected
  | succ budget ih => exact g.blind_exprWith ih power

theorem blind_expr (power : Int32) :
    Blind SyntaxTree.Alike (g.expr power) (g.expr power) := by
  refine blind_remaining.bind fun budget _ equal => ?_
  subst equal
  exact g.blind_exprWithin budget power

end Grammar

end OpenExpr
