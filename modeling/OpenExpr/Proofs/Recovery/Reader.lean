import OpenExpr.Proofs.Parse.Statement
import OpenExpr.Proofs.Recovery.Halts

namespace OpenExpr

open Parse

theorem Token.not_isOperator_of_kind (t : Token) (symbol : Char) (other : t.kind ≠ .operator) :
    ¬ t.isOperator symbol = true := by
  simp [Token.isOperator, Token.symbol?_eq_none_of_kind other]

namespace Grammar

variable (g : Grammar) {n : Nat} {e e' e'' : Int32 → Parse SyntaxTree}

theorem halts_constant : Halts 1 (n + 1) constant constant constant := by
  refine halts_advance_then fun t => ?_
  split
  · exact halts_pure _
  · exact halts_throw _

theorem halts_parenthesised (inner : ∀ power, Halts 0 n (e power) (e' power) (e'' power)) :
    Halts 1 (n + 1) (parenthesised e) (parenthesised e') (parenthesised e'') :=
  halts_advance_then fun _ => (inner 0).bind fun _ =>
    (halts_expect _ (by decide) (by decide)).bind fun _ => halts_node _ _ _ _

theorem halts_conditional (inner : ∀ power, Halts 0 n (e power) (e' power) (e'' power)) :
    Halts 1 (n + 1) (conditional e) (conditional e') (conditional e'') :=
  halts_advance_then fun _ => (inner 0).bind fun _ =>
    (halts_expect _ (by decide) (by decide)).bind fun _ => (inner 0).bind fun _ =>
    (halts_expect _ (by decide) (by decide)).bind fun _ => (inner 0).bind fun _ => halts_node _ _ _ _

theorem halts_nameOrCall (inner : ∀ power, Halts 0 n (e power) (e' power) (e'' power)) :
    Halts 1 (n + 1) (nameOrCall e) (nameOrCall e') (nameOrCall e'') := by
  have finish (name : Token) (arguments : List SyntaxTree) :=
    (halts_expect (n := n) .closeParen (by decide) (by decide)).bind fun _ =>
      halts_node .functionCall name.span.start name.text arguments
  have arguments := halts_remaining (halts_commaSeparated (inner 0))
  refine halts_advance_then fun name => halts_current (fun t => halts_ite ?_ (halts_pure _))
    fun t d ended semicolon => ?_
  · refine halts_advance.bind fun _ => halts_current (fun t => ?_) fun t d ended semicolon => ?_
    · refine halts_ite ?_ ?_
      · exact (halts_pure []).bind fun _ => finish name _
      · rw [← bind_assoc, ← bind_assoc]
        exact (arguments.bind fun _ => finish name _).mono (Nat.zero_le 1) (Nat.le_refl n)
    · simp only [ended, semicolon, reduceCtorEq, if_false]
      rw [← bind_assoc, ← bind_assoc]
      exact (arguments.bind fun _ => finish name _).mono (Nat.le_refl 0) (Nat.zero_le n)
  · simp only [ended, semicolon, reduceCtorEq, if_false]
    exact halts_pure _

theorem halts_forLoop (inner : ∀ power, Halts 0 n (e power) (e' power) (e'' power)) :
    Halts 1 (n + 1) (forLoop e) (forLoop e') (forLoop e'') := by
  refine halts_advance_then fun start => (halts_expect _ (by decide) (by decide)).bind fun name => ?_
  have body (initializer condition : SyntaxTree) (step : List SyntaxTree) :=
    (halts_expect (n := n) (.keyword .inWord) (by decide) (by decide)).bind fun _ =>
      (inner 0).bind fun body =>
      halts_node .forLoop start.span.start "" ([initializer, condition] ++ step ++ [body])
  have value := (halts_advance (n := n)).bind fun _ => (inner 0).bind fun value =>
    (halts_node .initializer name.span.start name.text [value]).bind fun initializer =>
    (halts_expect .comma (by decide) (by decide)).bind fun _ => (inner 0).bind
    fun condition => (halts_eat .comma (by decide) (by decide)).bind fun more =>
    halts_ite (c := more = true)
      ((inner 0).bind fun step => (halts_pure [step]).bind (body initializer condition))
      ((halts_pure []).bind (body initializer condition))
  refine halts_current (fun t => halts_ite value (halts_unexpectedDetailed_bind _ _ _ _))
    fun t d ended semicolon => ?_
  have absent := d.not_isOperator_of_kind '=' (by simp [semicolon])
  rw [if_neg (t.not_isOperator_of_kind '=' (by simp [ended])), if_neg absent, if_neg absent]
  exact halts_unexpectedDetailed_bind _ _ _ _

theorem halts_initializer (inner : ∀ power, Halts 0 n (e power) (e' power) (e'' power)) :
    Halts 0 n (initializer e) (initializer e') (initializer e'') := by
  have finish (name : Token) (value : List SyntaxTree) :=
    halts_node (l := 0) (n := n) .initializer name.span.start name.text value
  refine (halts_expect _ (by decide) (by decide)).bind fun name =>
    halts_current (fun t => halts_ite ?_ ((halts_pure []).bind (finish name)))
      fun t d ended semicolon => ?_
  · exact halts_advance.bind fun _ => (inner 0).bind fun value =>
      (halts_pure [value]).bind (finish name)
  · have absent := d.not_isOperator_of_kind '=' (by simp [semicolon])
    rw [if_neg (t.not_isOperator_of_kind '=' (by simp [ended])), if_neg absent, if_neg absent]
    exact ((halts_pure []).bind (finish name)).mono (Nat.le_refl 0) (Nat.zero_le n)

theorem halts_varIn (inner : ∀ power, Halts 0 n (e power) (e' power) (e'' power)) :
    Halts 1 (n + 1) (varIn e) (varIn e') (varIn e'') := by
  have initializers := halts_remaining (halts_commaSeparated (halts_initializer inner))
  refine halts_advance_then fun start => ?_
  rw [← bind_assoc, ← bind_assoc]
  exact initializers.bind fun _ => (halts_expect _ (by decide) (by decide)).bind fun _ =>
    (inner 0).bind fun _ => halts_node _ _ _ _

theorem halts_primaryWith (inner : ∀ power, Halts 0 n (e power) (e' power) (e'' power)) :
    Halts 1 (n + 1) (g.primaryWith e) (g.primaryWith e') (g.primaryWith e'') := by
  refine halts_ite halts_unexpected (halts_current_some fun t => ?_)
  split
  · exact halts_constant
  · exact halts_nameOrCall inner
  · exact halts_parenthesised inner
  · exact halts_conditional inner
  · exact halts_forLoop inner
  · exact halts_varIn inner
  · exact halts_unexpected

theorem halts_operandWith (inner : ∀ power, Halts 0 n (e power) (e' power) (e'' power)) :
    Halts 1 (n + 1) (g.operandWith e) (g.operandWith e') (g.operandWith e'') := by
  refine halts_current_some fun t => ?_
  split
  · exact g.halts_primaryWith inner
  · split
    · exact halts_unexpectedDetailed _
    · exact halts_advance_then fun _ => (inner _).bind fun _ => halts_node _ _ _ _

theorem halts_operatorTail (inner : ∀ power, Halts 0 n (e power) (e' power) (e'' power)) (power : Int32) :
    ∀ m ≤ n + 1, ∀ b c k, m ≤ b → m < c → m < k →
      Halts 0 m (g.operatorTail e power b) (g.operatorTail e' power c)
        (g.operatorTail e'' power k) := by
  refine budget_induction (fun b c k => ?_) fun m small b c k later => ?_
  · have behind : Halts 0 0 (pure []) (g.operatorTail e' power (c + 1))
        (g.operatorTail e'' power (k + 1)) := by
      refine .current_right fun d semicolon => ?_
      rw [Token.symbol?_eq_none_of_kind (by rw [semicolon]; decide)]
      exact halts_pure []
    cases b with
    | zero => exact behind
    | succ b =>
      refine .current_left fun t finish => ?_
      rw [Token.symbol?_eq_none_of_kind (by rw [finish]; decide)]
      exact behind
  · refine halts_current (fun t => ?_) fun t d finish semicolon => ?_
    · split
      · exact halts_pure _
      · rename_i symbol _
        have next : Halts 1 (m + 1) _ _ _ := halts_advance_then fun operator =>
          ((inner (g.rightPower symbol)).mono (Nat.le_refl 0) (by omega)).bind fun operand =>
          later.bind fun rest => halts_pure ((operator, operand) :: rest)
        exact halts_ite (halts_pure _) (halts_ite (halts_requireLevel_then _ _ _ next) next)
    · rw [Token.symbol?_eq_none_of_kind (by rw [finish]; decide),
        Token.symbol?_eq_none_of_kind (by rw [semicolon]; decide)]
      exact halts_pure _

theorem halts_exprWith (inner : ∀ power, Halts 0 n (e power) (e' power) (e'' power)) (power : Int32) :
    Halts 1 (n + 1) (g.exprWith e power) (g.exprWith e' power)
      (g.exprWith e'' power) := by
  refine halts_position fun start => (g.halts_operandWith inner).bind fun operand => ?_
  have tail := halts_remaining (g.halts_operatorTail inner power)
  rw [← bind_assoc, ← bind_assoc]
  exact tail.bind fun _ => halts_spanFrom start fun _ => halts_pure _

/-- No expression starts with a semicolon or at the end of the input. -/
theorem exprWithin_of_stop (budget : Nat) (power : Int32) {s : TokenStream}
    (stop : s.current.kind = .semicolon ∨ s.current.kind = .endOfInput) :
    g.exprWithin budget power s = .error s.unexpected s := by
  have noSymbol : s.current.symbol? = none :=
    Token.symbol?_eq_none_of_kind (by rcases stop with kind | kind <;> simp [kind])
  cases budget with
  | zero => rfl
  | succ budget =>
    have primary : g.primaryWith (g.exprWithin budget) s = .error s.unexpected s := by
      unfold primaryWith
      split
      · rfl
      · rw [bind_ok (current_apply s)]
        rcases stop with kind | kind <;> rw [kind] <;> rfl
    have operand : g.operandWith (g.exprWithin budget) s = .error s.unexpected s := by
      unfold operandWith
      rw [bind_ok (current_apply s), noSymbol]
      exact primary
    unfold exprWithin exprWith
    exact bind_error operand _

theorem halts_exprWithin_of_end (b c k : Nat) (power : Int32) :
    Halts 0 0 (g.exprWithin b power) (g.exprWithin c power) (g.exprWithin k power) := by
  refine ⟨fun s _ small => ?_, fun s d u v _ small meet => ?_⟩
  all_goals
    have atEnd := List.eq_nil_of_length_eq_zero (Nat.le_zero.mp small)
    rw [g.exprWithin_of_end b power atEnd]
  · exact Nat.le_refl _
  · have left : (s.followedBy u).current.kind = .semicolon := (meet.current atEnd).symm ▸ meet.1
    have right : (s.followedBy v).current.kind = .semicolon := (meet.symm.current atEnd).symm ▸ meet.1
    rw [g.exprWithin_of_stop c power (.inl left), g.exprWithin_of_stop k power (.inl right)]
    exact ⟨_, rfl, by rw [meet.unexpected]⟩

theorem halts_exprWithin (n : Nat) : ∀ m ≤ n, ∀ b c k, m ≤ b → m < c → m < k → ∀ power,
    Halts 0 m (g.exprWithin b power) (g.exprWithin c power) (g.exprWithin k power) :=
  budget_induction (fun b c k => g.halts_exprWithin_of_end b (c + 1) (k + 1))
    fun _ _ b c k inner power =>
      .join (g.halts_exprWithin_of_end (b + 1) (c + 1) (k + 1) power) (g.halts_exprWith inner power)

/-- An expression is read up to a semicolon at most. -/
theorem halts_expr (n : Nat) (power : Int32) :
    Halts 0 n (g.expr power) (g.expr power) (g.expr power) :=
  halts_remaining fun m small b c k enough enough' enough'' =>
    g.halts_exprWithin n m small b c k enough enough' enough'' power

theorem halts_parameters (n : Nat) : ∀ m ≤ n, ∀ b c k, m ≤ b → m < c → m < k →
    Halts 0 m (parameters b) (parameters c) (parameters k) := by
  refine budget_induction (fun b c k => ?_) fun m _ b c k names => ?_
  · have behind : Halts 0 0 (pure []) (parameters (c + 1)) (parameters (k + 1)) := by
      refine .current_right fun d semicolon => ?_
      have absent : d.kind ≠ .identifier := by simp [semicolon]
      rw [if_neg absent, if_neg absent]
      exact halts_pure []
    cases b with
    | zero => exact behind
    | succ b =>
      refine .current_left fun t finish => ?_
      rw [if_neg (by rw [finish]; decide)]
      exact behind
  · refine halts_current (fun t => halts_ite ?_ (halts_pure _)) fun t d finish semicolon => ?_
    · exact halts_advance_then fun name => (halts_eat _ (by decide) (by decide)).bind fun _ =>
        names.bind fun _ => halts_pure _
    · have absent : d.kind ≠ .identifier := by simp [semicolon]
      rw [if_neg (by simp [finish]), if_neg absent, if_neg absent]
      exact halts_pure _

theorem halts_functionPrototype : Halts 1 n functionPrototype functionPrototype functionPrototype :=
  halts_advance.bind fun _ => (halts_expect _ (by decide) (by decide)).bind fun _ =>
    halts_remaining fun m small b c k enough enough' enough'' =>
    (halts_parameters n m small b c k enough enough' enough'').bind fun _ =>
    (halts_expect _ (by decide) (by decide)).bind fun _ => halts_node _ _ _ _

theorem halts_operatorSymbol : Halts 0 n operatorSymbol operatorSymbol operatorSymbol := by
  refine halts_current (fun t => ?_) fun t d finish semicolon => ?_
  · split
    · exact halts_advance.bind fun _ => halts_pure _
    · exact halts_unexpectedDetailed _
  · rw [Token.symbol?_eq_none_of_kind (by rw [finish]; decide),
      Token.symbol?_eq_none_of_kind (by rw [semicolon]; decide)]
    exact halts_unexpectedDetailed _

theorem halts_precedence (default : Int32) : Halts 0 n (precedence default) (precedence default)
    (precedence default) := by
  refine halts_current (fun t => halts_ite ?_ (halts_pure _)) fun t d finish semicolon => ?_
  · refine halts_advance.bind fun token => ?_
    split
    · exact halts_pure _
    · exact halts_throw _
  · rw [if_neg (by rw [finish]; decide), if_neg (by rw [semicolon]; decide)]
    exact halts_pure _

theorem halts_unaryPrototype : Halts 1 n unaryPrototype unaryPrototype unaryPrototype :=
  halts_advance.bind fun _ => halts_operatorSymbol.bind fun _ => (halts_precedence _).bind fun _ =>
    (halts_expect _ (by decide) (by decide)).bind fun _ =>
    (halts_expect _ (by decide) (by decide)).bind fun _ =>
    (halts_expect _ (by decide) (by decide)).bind fun _ => (halts_node _ _ _ _).bind fun _ =>
    halts_pure _

theorem halts_binaryPrototype : Halts 1 n binaryPrototype binaryPrototype binaryPrototype := by
  refine halts_advance.bind fun _ => halts_operatorSymbol.bind fun _ => halts_ite ?_ ?_
  · exact halts_throw_bind _ _ _ _
  · exact (halts_precedence _).bind fun _ => (halts_expect _ (by decide) (by decide)).bind fun _ =>
      (halts_expect _ (by decide) (by decide)).bind fun _ => (halts_eat _ (by decide) (by decide)).bind
      fun _ => (halts_expect _ (by decide) (by decide)).bind fun _ =>
      (halts_expect _ (by decide) (by decide)).bind fun _ => (halts_node _ _ _ _).bind fun _ =>
      halts_pure _

theorem halts_prototype : Halts 0 n prototype prototype prototype := by
  refine halts_current (fun t => ?_) fun t d finish semicolon => ?_
  · split
    · exact halts_functionPrototype.bind fun _ => halts_pure _
    · exact halts_unaryPrototype.bind fun _ => halts_pure _
    · exact halts_binaryPrototype.bind fun _ => halts_pure _
    · exact halts_unexpectedDetailed _
  · rw [finish, semicolon]
    exact halts_unexpectedDetailed _

theorem halts_topLevel : Halts 1 n g.topLevel g.topLevel g.topLevel :=
  halts_position fun _ => ((g.halts_expr n 0).mono (Nat.zero_le 1) (Nat.le_refl n)).bind fun _ =>
    (halts_node _ _ _ _).bind fun _ => halts_pure _

/-- No statement starts with a semicolon or at the end of the input. -/
theorem statement_of_stop {s : TokenStream}
    (stop : s.current.kind = .semicolon ∨ s.current.kind = .endOfInput) :
    g.statement s = .error s.unexpected s := by
  have failed : g.topLevel s = .error s.unexpected s :=
    bind_error (g.exprWithin_of_stop _ 0 stop) _
  unfold statement
  split
  · exact failed
  · rw [bind_ok (current_apply s)]
    rcases stop with kind | kind <;> rw [kind] <;> exact failed

/-- A statement is read up to a semicolon at most, and what follows that has no say in it. -/
theorem halts_statement (n : Nat) : Halts 1 n g.statement g.statement g.statement := by
  refine halts_ite g.halts_topLevel (halts_current_some fun t => ?_)
  unfold statementOf
  split
  · exact halts_advance.bind fun _ => halts_prototype.bind fun _ =>
      ((g.introduce _).halts_expr n 0).bind fun _ => (halts_node _ _ _ _).bind fun _ => halts_pure _
  · exact halts_advance.bind fun _ => halts_prototype.bind fun _ =>
      (halts_node _ _ _ _).bind fun _ => halts_pure _
  · exact g.halts_topLevel

end Grammar

end OpenExpr
