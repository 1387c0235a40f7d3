import OpenExpr.Proofs.Parse.Statement
import OpenExpr.Proofs.Placement.Expression

namespace OpenExpr

open Parse

namespace Grammar

variable (g : Grammar)

theorem alike_parameter {t t' : Token} (alike : t.Alike t') :
    (parameter t).Alike (parameter t') := by
  unfold parameter
  rw [alike.text]
  exact .node trivial .nil .nil

theorem blind_parameters (budget : Nat) :
    Blind SyntaxTree.AllAlike (parameters budget) (parameters budget) := by
  induction budget with
  | zero => exact related_pure .nil
  | succ budget ih =>
    refine blind_current.bind fun t t' alike => related_ite (by rw [alike.kind]) ?_ (related_pure .nil)
    exact blind_advance.bind fun _ _ name => (blind_eat .comma).bind fun _ _ _ =>
      ih.bind fun _ _ names => related_pure (.cons (alike_parameter name) names)

theorem agree_functionPrototype {s s' : TokenStream} (alike : s.Alike s')
    (name : s.current.kind = .identifier) :
    Agree TokenStream.Alike SameCause SyntaxTree.Alike (functionPrototype s) (functionPrototype s') := by
  have same := alike.current
  refine agree_advance alike ((blind_expect _).bind fun _ _ _ =>
    blind_remaining.bind fun budget _ equal => ?_)
  subst equal
  exact (blind_parameters budget).bind fun _ _ names => (blind_expect _).bind fun _ _ _ =>
    blind_node _ _ _ same.text (same.plain name) names

/-- An operator with its symbol, placed elsewhere. -/
def SameSymbol (a b : Char × Token) : Prop :=
  a.1 = b.1 ∧ a.2.Alike b.2 ∧ a.2.kind = .operator

theorem blind_operatorSymbol : Blind SameSymbol operatorSymbol operatorSymbol := by
  intro s s' alike
  have same := alike.current
  unfold operatorSymbol
  rw [bind_ok (current_apply s), bind_ok (current_apply s'), ← same.symbol?]
  cases operator : s.current.symbol? with
  | none => exact blind_unexpectedDetailed _ s s' alike
  | some symbol =>
    exact agree_advance alike (related_pure ⟨rfl, same, Token.kind_of_symbol? operator⟩)

theorem blind_precedence (default : Int32) : Blind Eq (precedence default) (precedence default) := by
  refine blind_current.bind fun t t' alike => related_ite (by rw [alike.kind]) ?_ (related_pure rfl)
  refine blind_advance.bind fun t t' number => ?_
  rw [← number.text]
  split
  · exact related_pure rfl
  · exact related_throw rfl

/-- A header placed elsewhere, which introduces the same operator. -/
def SameHeader {α : Type} (a b : SyntaxTree × α) : Prop :=
  a.1.Alike b.1 ∧ a.2 = b.2

theorem blind_unaryPrototype : Blind SameHeader unaryPrototype unaryPrototype := by
  refine blind_advance.bind fun _ _ _ => blind_operatorSymbol.bind ?_
  rintro ⟨symbol, operator⟩ ⟨_, operator'⟩ ⟨rfl, same, kind⟩
  refine (blind_precedence _).bind fun n _ equal => (blind_expect _).bind fun _ _ _ =>
    (blind_expect _).bind fun _ _ operand => (blind_expect _).bind fun _ _ _ => ?_
  subst equal
  exact (blind_node .unaryPrototype _ _ same.text (same.sign kind) (.one (alike_parameter operand))).bind fun _ _ tree =>
    related_pure ⟨tree, rfl⟩

theorem blind_binaryPrototype : Blind SameHeader binaryPrototype binaryPrototype := by
  refine blind_advance.bind fun _ _ _ => blind_operatorSymbol.bind ?_
  rintro ⟨symbol, operator⟩ ⟨_, operator'⟩ ⟨rfl, same, kind⟩
  refine related_ite Iff.rfl (blind_throw_bind rfl) ?_
  refine (blind_precedence _).bind fun n _ equal => ?_
  subst equal
  exact (blind_expect _).bind fun _ _ _ => (blind_expect _).bind fun _ _ left =>
    (blind_eat _).bind fun _ _ _ => (blind_expect _).bind fun _ _ right =>
    (blind_expect _).bind fun _ _ _ => (blind_node .binaryPrototype _ _ same.text (same.sign kind)
      (.cons (alike_parameter left) (.one (alike_parameter right)))).bind fun _ _ tree =>
    related_pure ⟨tree, rfl⟩

theorem blind_prototype : Blind SameHeader prototype prototype := by
  intro s s' alike
  unfold prototype
  rw [bind_ok (current_apply s), bind_ok (current_apply s'), ← alike.current.kind]
  cases kind : s.current.kind with
  | identifier =>
    exact (agree_functionPrototype alike kind).bind fun _ _ tree => related_pure ⟨tree, rfl⟩
  | keyword word =>
    cases word with
    | unaryWord => exact (blind_unaryPrototype s s' alike).bind fun _ _ same =>
        related_pure ⟨same.1, congrArg some same.2⟩
    | binaryWord => exact (blind_binaryPrototype s s' alike).bind fun _ _ same =>
        related_pure ⟨same.1, congrArg some same.2⟩
    | _ => exact blind_unexpectedDetailed _ s s' alike
  | _ => exact blind_unexpectedDetailed _ s s' alike

theorem blind_topLevel : Blind SameHeader g.topLevel g.topLevel :=
  blind_position.bind fun _ _ _ => (g.blind_expr 0).bind fun _ _ body =>
    (blind_node .topLevelExpression _ _ rfl trivial (.one body)).bind fun _ _ tree =>
    related_pure ⟨tree, rfl⟩

theorem blind_statementOf (kind : Token.Kind) :
    Blind SameHeader (g.statementOf kind) (g.statementOf kind) := by
  unfold statementOf
  split
  · refine blind_advance.bind fun _ _ _ => blind_prototype.bind ?_
    rintro ⟨header, op?⟩ ⟨header', _⟩ ⟨same, rfl⟩
    exact ((g.introduce op?).blind_expr 0).bind fun _ _ body =>
      (blind_node .functionDefinition _ _ rfl trivial (.cons same (.one body))).bind fun _ _ tree =>
      related_pure ⟨tree, rfl⟩
  · exact blind_advance.bind fun _ _ _ => blind_prototype.bind fun _ _ same =>
      (blind_node .externalDeclaration _ _ rfl trivial (.one same.1)).bind fun _ _ tree =>
      related_pure ⟨tree, same.2⟩
  · exact g.blind_topLevel

/-- A statement is read alike wherever its tokens stand. -/
theorem blind_statement : Blind SameHeader g.statement g.statement := by
  refine related_ite Iff.rfl g.blind_topLevel (blind_current.bind fun t t' alike => ?_)
  rw [← alike.kind]
  exact g.blind_statementOf t.kind

theorem blind_ending {tree tree' : SyntaxTree} (alike : tree.Alike tree') (start start' : Position) :
    Blind SyntaxTree.Alike (ending start tree) (ending start' tree') := by
  refine (blind_eat .semicolon).bind fun _ _ _ s s' same => ?_
  rcases same.cases with ⟨left, right⟩ | ⟨t, t', rest, rest', left, right, _⟩
  · rw [closing_of_end left, closing_of_end right]
    exact blind_node .repl _ _ rfl trivial (.one alike) s s' same
  · rw [closing_of_tokens (by simp [left]), closing_of_tokens (by simp [right])]
    exact ⟨same.unexpectedDetailed _, same⟩

theorem blind_single : Blind SameHeader g.single g.single :=
  blind_position.bind fun start start' _ => g.blind_statement.bind fun _ _ same =>
    (blind_ending same.1 start start').bind fun _ _ tree => related_pure ⟨tree, same.2⟩

end Grammar

end OpenExpr
