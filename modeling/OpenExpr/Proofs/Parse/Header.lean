import OpenExpr.Proofs.Parse.Budget
import OpenExpr.SyntaxTree.Statement

namespace OpenExpr

open Parse

namespace Grammar

theorem parameters_of_end (budget : Nat) {s : TokenStream} (atEnd : s.pending = []) :
    parameters budget s = .ok [] s := by
  cases budget with
  | zero => rfl
  | succ budget =>
    have noMore : s.current.kind ≠ .identifier := by
      rw [TokenStream.current_kind_of_end atEnd]
      decide
    unfold parameters
    rw [bind_ok (current_apply s), if_neg noMore]
    rfl

theorem steady_parameters (m : Nat) :
    ∀ b c, m ≤ b → m ≤ c → Steady m (parameters b) (parameters c) := by
  induction m with
  | zero =>
    intro b c _ _
    refine steady_zero (fun s atEnd => ?_) (fun s atEnd => ?_) (fun s atEnd => ?_)
    · rw [parameters_of_end b atEnd, parameters_of_end c atEnd]
    · rw [parameters_of_end b atEnd]
      exact ⟨atEnd, rfl⟩
    · rw [parameters_of_end b atEnd]
      exact atEnd
  | succ m ih =>
    intro b c enough enough'
    obtain ⟨b, rfl⟩ := Nat.exists_eq_add_of_le' (by omega : 1 ≤ b)
    obtain ⟨c, rfl⟩ := Nat.exists_eq_add_of_le' (by omega : 1 ≤ c)
    have names := ih b c (by omega) (by omega)
    refine steady_current fun t => steady_ite _ (steady_advance_then fun name => ?_) (steady_pure _ _)
    exact (steady_eat m .comma).bind fun _ => names.bind fun _ => steady_pure m _

theorem steady_functionPrototype (n : Nat) : Steady n functionPrototype functionPrototype :=
  (steady_advance n).bind fun _ => (steady_expect n _).bind fun _ =>
    steady_remaining fun m _ b c enough enough' =>
    (steady_parameters m b c enough enough').bind fun _ =>
    (steady_expect m _).bind fun _ => steady_node m _ _ _ _

theorem steady_operatorSymbol (n : Nat) : Steady n operatorSymbol operatorSymbol := by
  refine steady_current fun t => ?_
  split
  · exact (steady_advance n).bind fun _ => steady_pure n _
  · exact steady_unexpectedDetailed n _

/-- An operator symbol that is not built in. -/
def definableSymbol : Parse (Char × Token) := do
  match (← Parse.current).symbol? with
  | some symbol =>
    let operator ← Parse.advance
    settle (if OperatorTable.isBuiltIn symbol .infixLeft then
      .error { cause := .builtInOperatorRedefinition symbol, position := operator.span.start }
    else .ok (symbol, operator))
  | none => Parse.unexpectedDetailed "expected an operator symbol"

theorem steady_definableSymbol (n : Nat) : Steady n definableSymbol definableSymbol := by
  refine steady_current_bind (fun t => ?_) fun t finish => ?_
  · split
    · exact extends_advance_bind_settle n _
    · exact (steady_unexpectedDetailed n _).toExtends
  · rw [Token.symbol?_eq_none_of_kind (by rw [finish]; decide)]
    exact (steady_unexpectedDetailed n _).patient

/-- The number of a precedence is judged by itself. -/
theorem precedence_eq (default : Int32) : precedence default = (do
    if (← current).kind = .number then
      let token ← advance
      settle (match precedence? token.text with
        | some n => .ok n
        | none => .error { cause := .invalidPrecedence token.text, position := token.span.start })
    else
      return default) := by
  unfold precedence
  congr
  funext t
  congr
  funext token
  cases precedence? token.text <;> rfl

theorem steady_precedence (n : Nat) (default : Int32) :
    Steady n (precedence default) (precedence default) := by
  rw [precedence_eq]
  refine steady_current_bind (fun t => ?_) fun t finish => ?_
  · split
    · exact extends_advance_bind_settle n _
    · exact (steady_pure n _).toExtends
  · rw [if_neg (by rw [finish]; decide)]
    exact (steady_pure n _).patient

theorem steady_unaryPrototype (n : Nat) : Steady n unaryPrototype unaryPrototype :=
  (steady_advance n).bind fun _ => (steady_operatorSymbol n).bind fun _ =>
    (steady_precedence n _).bind fun _ => (steady_expect n _).bind fun _ =>
    (steady_expect n _).bind fun _ => (steady_expect n _).bind fun _ =>
    (steady_node n _ _ _ _).bind fun _ => steady_pure n _

theorem binaryPrototype_eq : binaryPrototype = (do
    let start := (← advance).span.start
    let (symbol, operator) ← definableSymbol
    let precedence ← precedence Operator.defaultInfixPrecedence
    let _ ← expect .openParen
    let left ← expect .identifier
    let _ ← eat .comma
    let right ← expect .identifier
    let _ ← expect .closeParen
    let tree ← node .binaryPrototype start operator.text [parameter left, parameter right]
    return (tree, { symbol, fixity := .infixLeft, precedence })) := by
  unfold binaryPrototype operatorSymbol definableSymbol
  congr
  funext start
  rw [bind_assoc, bind_assoc]
  congr
  funext t
  cases t.symbol? with
  | none => rfl
  | some symbol =>
    dsimp only
    rw [bind_assoc, bind_assoc]
    congr
    funext operator
    rw [pure_bind]
    dsimp only
    split <;> rfl

theorem steady_binaryPrototype (n : Nat) : Steady n binaryPrototype binaryPrototype := by
  rw [binaryPrototype_eq]
  exact (steady_advance n).bind fun _ => (steady_definableSymbol n).bind fun _ =>
    (steady_precedence n _).bind fun _ => (steady_expect n _).bind fun _ =>
    (steady_expect n _).bind fun _ => (steady_eat n _).bind fun _ => (steady_expect n _).bind fun _ =>
    (steady_expect n _).bind fun _ => (steady_node n _ _ _ _).bind fun _ => steady_pure n _

theorem steady_prototype (n : Nat) : Steady n prototype prototype := by
  refine steady_current fun t => ?_
  split
  · exact (steady_functionPrototype n).bind fun _ => steady_pure n _
  · exact (steady_unaryPrototype n).bind fun _ => steady_pure n _
  · exact (steady_binaryPrototype n).bind fun _ => steady_pure n _
  · exact steady_unexpectedDetailed n _

end Grammar

end OpenExpr
