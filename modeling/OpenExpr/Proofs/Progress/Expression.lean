import OpenExpr.Proofs.Progress.Reading
import OpenExpr.Proofs.Token.Lexed

namespace OpenExpr.Grammar

open Parse

variable {g : Grammar} {e : Int32 → Parse SyntaxTree} {s : TokenStream}

theorem moves_constant (some : s.current.kind ≠ .endOfInput) : Moves 1 s (constant s) :=
  (moves_advance some).bind fun _ => advances_ite (advances_pure _) (advances_throw _)

theorem moves_nameOrCall (inner : ∀ power, Advances 0 (e power))
    (some : s.current.kind ≠ .endOfInput) : Moves 1 s (nameOrCall e s) := by
  have finish (name : Token) (arguments : List SyntaxTree) :=
    (advances_expect .closeParen).bind fun _ =>
      advances_node .functionCall name.span.start name.text arguments
  refine (moves_advance some).bind fun name => advances_current fun _ =>
    advances_ite ?_ (advances_pure _)
  refine advances_advance.bind fun _ => advances_current fun _ => advances_ite (finish name []) ?_
  exact advances_remaining fun budget => (advances_commaSeparated (inner 0) budget).bind (finish name)

theorem moves_parenthesised (inner : ∀ power, Advances 0 (e power))
    (some : s.current.kind ≠ .endOfInput) : Moves 1 s (parenthesised e s) :=
  (moves_advance some).bind fun _ => (inner 0).bind fun _ => (advances_expect _).bind fun _ =>
    advances_node _ _ _ _

theorem moves_conditional (inner : ∀ power, Advances 0 (e power))
    (some : s.current.kind ≠ .endOfInput) : Moves 1 s (Grammar.conditional e s) :=
  (moves_advance some).bind fun _ => (inner 0).bind fun _ => (advances_expect _).bind fun _ =>
    (inner 0).bind fun _ => (advances_expect _).bind fun _ => (inner 0).bind fun _ =>
    advances_node _ _ _ _

theorem moves_forLoop (inner : ∀ power, Advances 0 (e power))
    (some : s.current.kind ≠ .endOfInput) : Moves 1 s (forLoop e s) := by
  refine (moves_advance some).bind fun start => (advances_expect _).bind fun name => ?_
  have body (initializer condition : SyntaxTree) (step : List SyntaxTree) :=
    (advances_expect (.keyword .inWord)).bind fun _ => (inner 0).bind fun body =>
      advances_node .forLoop start.span.start "" ([initializer, condition] ++ step ++ [body])
  have value := advances_advance.bind fun _ => (inner 0).bind fun value =>
    (advances_node .initializer name.span.start name.text [value]).bind fun initializer =>
    (advances_expect .comma).bind fun _ => (inner 0).bind fun condition =>
    (advances_eat .comma).bind fun more => advances_ite (c := more = true)
      ((inner 0).bind fun step => (advances_pure [step]).bind (body initializer condition))
      ((advances_pure []).bind (body initializer condition))
  exact advances_current fun _ =>
    advances_ite value ((advances_unexpectedDetailed _).bind fun _ => value)

theorem advances_initializer (inner : ∀ power, Advances 0 (e power)) :
    Advances 0 (initializer e) := by
  refine (advances_expect _).bind fun name => advances_current fun _ => ?_
  have finish := advances_node .initializer name.span.start name.text
  refine advances_ite ?_ ((advances_pure []).bind finish)
  exact advances_advance.bind fun _ => (inner 0).bind fun value =>
    (advances_pure [value]).bind finish

theorem moves_varIn (inner : ∀ power, Advances 0 (e power))
    (some : s.current.kind ≠ .endOfInput) : Moves 1 s (Grammar.varIn e s) :=
  (moves_advance some).bind fun _ => advances_remaining fun budget =>
    (advances_commaSeparated (advances_initializer inner) budget).bind fun _ =>
    (advances_expect _).bind fun _ => (inner 0).bind fun _ => advances_node _ _ _ _

/-- The token that tells an operand from others is not the end, and it is taken. -/
theorem advances_primaryWith (inner : ∀ power, Advances 0 (e power)) :
    Advances 1 (g.primaryWith e) := by
  refine advances_ite advances_unexpected fun s => moves_current ?_
  cases kind : s.current.kind with
  | number => exact moves_constant (by simp [kind])
  | identifier => exact moves_nameOrCall inner (by simp [kind])
  | openParen => exact moves_parenthesised inner (by simp [kind])
  | keyword word =>
    have some : s.current.kind ≠ .endOfInput := by simp [kind]
    cases word with
    | ifWord => exact moves_conditional inner some
    | forWord => exact moves_forLoop inner some
    | varWord => exact moves_varIn inner some
    | _ => exact advances_unexpected s
  | _ => exact advances_unexpected s

theorem advances_operandWith (inner : ∀ power, Advances 0 (e power)) :
    Advances 1 (g.operandWith e) := by
  intro s
  refine moves_current ?_
  cases operator : s.current.symbol? with
  | none => exact advances_primaryWith inner s
  | some symbol =>
    dsimp only
    cases g.operators.prefixOp? symbol with
    | none => exact advances_unexpectedDetailed _ s
    | some op =>
      have some := Token.kind_ne_endOfInput_of_symbol? operator
      exact (moves_advance some).bind fun _ => (inner _).bind fun _ => advances_node _ _ _ _

theorem advances_operatorTail (inner : ∀ power, Advances 0 (e power)) (power : Int32) (budget : Nat) :
    Advances 0 (g.operatorTail e power budget) := by
  induction budget with
  | zero => exact advances_pure []
  | succ budget ih =>
    refine advances_current fun t => ?_
    cases t.symbol? with
    | none => exact advances_pure []
    | some symbol =>
      have next := advances_advance.bind fun operator => (inner (g.rightPower symbol)).bind fun operand =>
        ih.bind fun rest => advances_pure ((operator, operand) :: rest)
      exact advances_ite (advances_pure [])
        (advances_ite ((advances_requireLevel _ _ _).bind fun _ => next) next)

/-- An expression is at least its first operand. -/
theorem advances_exprWith (inner : ∀ power, Advances 0 (e power)) (power : Int32) :
    Advances 1 (g.exprWith e power) :=
  advances_position fun start => (advances_operandWith inner).bind fun _ =>
    advances_remaining fun budget => (advances_operatorTail inner power budget).bind fun _ =>
    advances_spanFrom start fun _ => advances_pure _

theorem advances_exprWithin (budget : Nat) (power : Int32) :
    Advances 1 (g.exprWithin budget power) := by
  induction budget generalizing power with
  | zero => exact advances_unexpected
  | succ budget ih => exact advances_exprWith (fun power => (ih power).weaken) power

theorem advances_expr (power : Int32) : Advances 1 (g.expr power) :=
  advances_remaining fun budget => advances_exprWithin budget power

end OpenExpr.Grammar
