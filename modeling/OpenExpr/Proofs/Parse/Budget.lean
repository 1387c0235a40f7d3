import OpenExpr.Proofs.Parse.Steady

namespace OpenExpr

open Parse

namespace Parse

/-- At the end of the input there is no comma to go on after, whatever the budget. -/
theorem commaSeparated_of_end {p : Parse SyntaxTree} (item : ∀ s, s.pending = [] → Waits (p s))
    (budget : Nat) {s : TokenStream} (atEnd : s.pending = []) :
    commaSeparated p budget s = (p >>= fun first => pure [first]) s := by
  cases budget with
  | zero => rfl
  | succ budget =>
    have waits := item s atEnd
    unfold commaSeparated
    cases run : p s with
    | error e s' => rw [bind_error run, bind_error run]
    | ok first s' =>
      rw [run] at waits
      have noMore : s'.current.kind ≠ .comma := by
        rw [TokenStream.current_kind_of_end waits]
        decide
      rw [bind_ok run, bind_ok run, eat_bind, bind_ok (current_apply s'), if_neg noMore]
      rfl

theorem steady_commaSeparated {n : Nat} {p q : Parse SyntaxTree} (item : Steady n p q) :
    ∀ m ≤ n, ∀ b c, m ≤ b → m ≤ c → Steady m (commaSeparated p b) (commaSeparated q c) := by
  intro m
  induction m with
  | zero =>
    intro _ b c _ _
    have one := (item.mono (Nat.zero_le n)).bind fun first => steady_pure 0 [first]
    have other (s : TokenStream) (atEnd : s.pending = []) : q s = p s :=
      ((item.mono (Nat.zero_le n)).eq (by simp [atEnd])).symm
    refine steady_zero (fun s atEnd => ?_) (fun s atEnd => ?_) (fun s atEnd => ?_)
    · rw [commaSeparated_of_end item.patient b atEnd, commaSeparated_of_end ?_ c atEnd]
      · exact (one.eq (by simp [atEnd])).symm
      · intro s atEnd
        rw [other s atEnd]
        exact item.patient s atEnd
    · rw [commaSeparated_of_end item.patient b atEnd]
      obtain ⟨w, split⟩ := one.forward s (by simp [atEnd])
      exact ⟨(List.append_eq_nil_iff.mp (split.symm.trans atEnd)).2, one.finish s (by simp [atEnd])⟩
    · rw [commaSeparated_of_end item.patient b atEnd]
      exact one.patient s atEnd
  | succ m ih =>
    intro small b c enough enough'
    obtain ⟨b, rfl⟩ := Nat.exists_eq_add_of_le' (by omega : 1 ≤ b)
    obtain ⟨c, rfl⟩ := Nat.exists_eq_add_of_le' (by omega : 1 ≤ c)
    refine (item.mono small).bind fun first => steady_eat_then .comma ?_ (steady_pure _ _)
    exact (ih (by omega) b c (by omega) (by omega)).bind fun _ => steady_pure m _

end Parse

namespace Grammar

variable (g : Grammar) {n : Nat} {e e' : Int32 → Parse SyntaxTree}

theorem extends_constant (n : Nat) : Extends n constant constant := by
  have same : constant = advance >>= fun t => settle
      (if (Decimal.Numeral.ofText? t.text).isSome then
        .ok { kind := .constant, span := t.span, text := t.text : SyntaxTree }
      else .error { cause := .numberParseError t.text, position := t.span.start }) := by
    unfold constant
    congr
    funext t
    split <;> rfl
  rw [same]
  exact extends_advance_bind_settle n _

theorem steady_parenthesised (inner : ∀ power, Steady n (e power) (e' power)) :
    Steady (n + 1) (parenthesised e) (parenthesised e') :=
  steady_advance_then fun _ => (inner 0).bind fun _ =>
    (steady_expect n .closeParen).bind fun _ => steady_node n _ _ _ _

theorem steady_conditional (inner : ∀ power, Steady n (e power) (e' power)) :
    Steady (n + 1) (conditional e) (conditional e') :=
  steady_advance_then fun _ => (inner 0).bind fun _ => (steady_expect n _).bind fun _ =>
    (inner 0).bind fun _ => (steady_expect n _).bind fun _ =>
    (inner 0).bind fun _ => steady_node n _ _ _ _

theorem steady_nameOrCall (inner : ∀ power, Steady n (e power) (e' power)) :
    Steady (n + 1) (nameOrCall e) (nameOrCall e') := by
  have finish (name : Token) (arguments : List SyntaxTree) :=
    (steady_expect n .closeParen).bind fun _ =>
      steady_node n .functionCall name.span.start name.text arguments
  have arguments := steady_remaining (steady_commaSeparated (inner 0))
  refine steady_advance_then fun name => steady_current fun t => steady_ite _ ?_ (steady_pure n _)
  refine (steady_advance n).bind fun _ => steady_current fun t => steady_ite _ ?_ ?_
  · exact (steady_pure n []).bind fun _ => finish name _
  · rw [← bind_assoc, ← bind_assoc]
    exact arguments.bind fun _ => finish name _

theorem steady_forLoop (inner : ∀ power, Steady n (e power) (e' power)) :
    Steady (n + 1) (forLoop e) (forLoop e') := by
  refine steady_advance_then fun start => (steady_expect n _).bind fun name => ?_
  have body (initializer condition : SyntaxTree) (step : List SyntaxTree) :=
    (steady_expect n (.keyword .inWord)).bind fun _ => (inner 0).bind fun body =>
      steady_node n .forLoop start.span.start "" ([initializer, condition] ++ step ++ [body])
  refine steady_current fun t => ?_
  have value := (steady_advance n).bind fun _ => (inner 0).bind fun value =>
    (steady_node n .initializer name.span.start name.text [value]).bind fun initializer =>
    (steady_expect n .comma).bind fun _ => (inner 0).bind fun condition =>
    (steady_eat n .comma).bind fun more => steady_ite (more = true)
      ((inner 0).bind fun step => (steady_pure n [step]).bind (body initializer condition))
      ((steady_pure n []).bind (body initializer condition))
  exact steady_ite _ value ((steady_unexpectedDetailed n _).bind fun _ => value)

theorem steady_initializer (inner : ∀ power, Steady n (e power) (e' power)) :
    Steady n (initializer e) (initializer e') := by
  refine (steady_expect n _).bind fun name => steady_current fun t => ?_
  have finish (value : List SyntaxTree) :=
    steady_node n .initializer name.span.start name.text value
  refine steady_ite _ ?_ ((steady_pure n []).bind finish)
  exact (steady_advance n).bind fun _ => (inner 0).bind fun value =>
    (steady_pure n [value]).bind finish

theorem steady_varIn (inner : ∀ power, Steady n (e power) (e' power)) :
    Steady (n + 1) (varIn e) (varIn e') := by
  have initializers := steady_remaining (steady_commaSeparated (steady_initializer inner))
  refine steady_advance_then fun start => ?_
  rw [← bind_assoc, ← bind_assoc]
  exact initializers.bind fun _ => (steady_expect n _).bind fun _ => (inner 0).bind fun _ =>
    steady_node n _ _ _ _

theorem steady_primaryWith (inner : ∀ power, Steady n (e power) (e' power)) :
    Steady (n + 1) (g.primaryWith e) (g.primaryWith e') := by
  refine steady_ite _ (steady_unexpected _) (steady_current_bind (fun t => ?_) fun t finish => ?_)
  · split
    · exact extends_constant _
    · exact (steady_nameOrCall inner).toExtends
    · exact (steady_parenthesised inner).toExtends
    · exact (steady_conditional inner).toExtends
    · exact (steady_forLoop inner).toExtends
    · exact (steady_varIn inner).toExtends
    · exact (steady_unexpected _).toExtends
  · rw [finish]
    exact (steady_unexpected (n + 1)).patient

theorem steady_operandWith (inner : ∀ power, Steady n (e power) (e' power)) :
    Steady (n + 1) (g.operandWith e) (g.operandWith e') := by
  refine steady_current fun t => ?_
  split
  · exact g.steady_primaryWith inner
  · split
    · exact steady_unexpectedDetailed _ _
    · exact steady_advance_then fun _ => (inner _).bind fun _ => steady_node n _ _ _ _

theorem operatorTail_of_end (power : Int32) (budget : Nat) {s : TokenStream}
    (atEnd : s.pending = []) : g.operatorTail e power budget s = .ok [] s := by
  cases budget with
  | zero => rfl
  | succ budget =>
    unfold operatorTail
    rw [bind_ok (current_apply s), TokenStream.current_symbol_of_end atEnd]
    rfl

theorem steady_operatorTail (inner : ∀ power, Steady n (e power) (e' power)) (power : Int32) :
    ∀ m ≤ n + 1, ∀ b c, m ≤ b → m ≤ c →
      Steady m (g.operatorTail e power b) (g.operatorTail e' power c) := by
  intro m
  induction m with
  | zero =>
    intro _ b c _ _
    refine steady_zero (fun s atEnd => ?_) (fun s atEnd => ?_) (fun s atEnd => ?_)
    · rw [g.operatorTail_of_end power b atEnd, g.operatorTail_of_end power c atEnd]
    · rw [g.operatorTail_of_end power b atEnd]
      exact ⟨atEnd, rfl⟩
    · rw [g.operatorTail_of_end power b atEnd]
      exact atEnd
  | succ m ih =>
    intro small b c enough enough'
    obtain ⟨b, rfl⟩ := Nat.exists_eq_add_of_le' (by omega : 1 ≤ b)
    obtain ⟨c, rfl⟩ := Nat.exists_eq_add_of_le' (by omega : 1 ≤ c)
    refine steady_current_bind (fun t => ?_) fun t finish => ?_
    · split
      · exact (steady_pure _ _).toExtends
      · rename_i symbol _
        have next : Steady (m + 1) _ _ := steady_advance_then fun operator =>
          ((inner (g.rightPower symbol)).mono (by omega)).bind fun operand =>
          (ih (by omega) b c (by omega) (by omega)).bind fun rest =>
          steady_pure m ((operator, operand) :: rest)
        split
        · exact (steady_pure _ _).toExtends
        · split
          · exact (extends_requireLevel _ _ _ _).bind fun _ => next
          · exact next.toExtends
    · rw [Token.symbol?_eq_none_of_kind (by rw [finish]; decide)]
      exact (steady_pure (m + 1) _).patient

theorem steady_exprWith (inner : ∀ power, Steady n (e power) (e' power)) (power : Int32) :
    Steady (n + 1) (g.exprWith e power) (g.exprWith e' power) := by
  refine steady_position fun start => (g.steady_operandWith inner).bind fun operand => ?_
  have tail := steady_remaining (g.steady_operatorTail inner power)
  rw [← bind_assoc, ← bind_assoc]
  exact tail.bind fun _ => steady_spanFrom start fun _ => steady_pure _ _

theorem primaryWith_of_end {s : TokenStream} (atEnd : s.pending = []) :
    g.primaryWith e s = .error s.unexpected s := by
  unfold primaryWith
  split
  · rfl
  · rw [bind_ok (current_apply s), TokenStream.current_kind_of_end atEnd]
    rfl

theorem exprWith_of_end (power : Int32) {s : TokenStream} (atEnd : s.pending = []) :
    g.exprWith e power s = .error s.unexpected s := by
  have operand : g.operandWith e s = .error s.unexpected s := by
    unfold operandWith
    rw [bind_ok (current_apply s), TokenStream.current_symbol_of_end atEnd]
    exact g.primaryWith_of_end atEnd
  unfold exprWith
  exact bind_error operand _

theorem exprWithin_of_end (budget : Nat) (power : Int32) {s : TokenStream} (atEnd : s.pending = []) :
    g.exprWithin budget power s = .error s.unexpected s := by
  cases budget with
  | zero => rfl
  | succ budget => exact g.exprWith_of_end power atEnd

/-- The nesting is no deeper than there are tokens, so any two budgets that large
give the same. -/
theorem steady_exprWithin (n : Nat) : ∀ b c, n ≤ b → n ≤ c → ∀ power,
    Steady n (g.exprWithin b power) (g.exprWithin c power) := by
  induction n with
  | zero =>
    intro b c _ _ power
    refine steady_zero (fun s atEnd => ?_) (fun s atEnd => ?_) (fun s atEnd => ?_)
    · rw [g.exprWithin_of_end b power atEnd, g.exprWithin_of_end c power atEnd]
    · rw [g.exprWithin_of_end b power atEnd]
      exact ⟨atEnd, rfl⟩
    · rw [g.exprWithin_of_end b power atEnd]
      exact (steady_unexpected (α := SyntaxTree) 0).patient s atEnd
  | succ n ih =>
    intro b c enough enough' power
    obtain ⟨b, rfl⟩ := Nat.exists_eq_add_of_le' (by omega : 1 ≤ b)
    obtain ⟨c, rfl⟩ := Nat.exists_eq_add_of_le' (by omega : 1 ≤ c)
    exact g.steady_exprWith (ih b c (by omega) (by omega)) power

theorem steady_exprWithin_expr {n b : Nat} (enough : n ≤ b) (power : Int32) :
    Steady n (g.exprWithin b power) (g.expr power) where
  toExtends.forward := (g.steady_exprWithin n b b enough enough power).forward
  toExtends.finish := (g.steady_exprWithin n b b enough enough power).finish
  toExtends.agrees s more small going := by
    unfold expr
    rw [bind_ok (remaining_apply (s.extend more))]
    refine (g.steady_exprWithin s.pending.length b _ (by omega) ?_ power).agrees s more
      (Nat.le_refl _) going
    simp [TokenStream.extend]
  patient := (g.steady_exprWithin n b b enough enough power).patient

/-- What is read of an input does not depend on what follows it. -/
theorem steady_expr (n : Nat) (power : Int32) : Steady n (g.expr power) (g.expr power) :=
  steady_remaining fun m _ b c enough enough' => g.steady_exprWithin m b c enough enough' power

/-- Expressions are read by their own reader at every depth, without a budget. -/
theorem expr_eq : g.expr = g.exprWith g.expr := by
  funext power s
  have bare : g.expr power s = g.exprWithin s.pending.length power s := rfl
  rw [bare]
  cases size : s.pending.length with
  | zero =>
    have atEnd := List.eq_nil_of_length_eq_zero size
    rw [g.exprWithin_of_end 0 power atEnd, g.exprWith_of_end power atEnd]
  | succ n =>
    have inner := fun power => g.steady_exprWithin_expr (Nat.le_refl n) power
    exact (g.steady_exprWith inner power).eq (by omega)

/-- The operators after an operand that bind at least as tightly as `power`, read
without a budget. -/
def applications (power : Int32) : Parse (List (Token × SyntaxTree)) := do
  g.operatorTail g.expr power (← remaining)

theorem operatorTail_eq_applications (power : Int32) {s : TokenStream} {budget : Nat}
    (enough : s.pending.length ≤ budget) :
    g.operatorTail g.expr power budget s = g.applications power s :=
  (g.steady_operatorTail (g.steady_expr _) power _ (Nat.le_succ _) _ _ enough (Nat.le_refl _)).eq
    (Nat.le_refl _)

theorem exprWith_expr (power : Int32) :
    g.exprWith g.expr power = do
      let start ← position
      let operand ← g.operand
      let operators ← g.applications power
      return { kind := .expression, span := ← spanFrom start, children := [operand], operators } := by
  unfold exprWith applications
  congr

theorem applications_of_none {power : Int32} {s : TokenStream} (none : s.current.symbol? = none) :
    g.applications power s = .ok [] s := by
  unfold applications
  rw [bind_ok (remaining_apply s)]
  cases s.pending.length with
  | zero => rfl
  | succ budget =>
    unfold operatorTail
    rw [bind_ok (current_apply s), none]
    rfl

/-- An operator stands before the end, so the budget is not used up in front of it. -/
theorem applications_of_some {power : Int32} {s : TokenStream} {symbol : Char}
    (operator : s.current.symbol? = some symbol) :
    g.applications power s = g.operatorTail g.expr power (s.advance.pending.length + 1) s := by
  cases pending : s.pending with
  | nil =>
    rw [TokenStream.current_symbol_of_end pending] at operator
    cases operator
  | cons t rest =>
    have run : g.applications power s = g.operatorTail g.expr power s.pending.length s := rfl
    rw [run, TokenStream.pending_advance_of_pending pending, pending, List.length_cons]

theorem applications_of_weaker {power : Int32} {s : TokenStream} {symbol : Char}
    (operator : s.current.symbol? = some symbol) (weaker : g.leftPower symbol < power) :
    g.applications power s = .ok [] s := by
  rw [g.applications_of_some operator]
  unfold operatorTail
  rw [bind_ok (current_apply s), operator]
  simp only [if_pos weaker]
  rfl

theorem applications_of_tighter {power : Int32} {s s' s'' : TokenStream} {symbol : Char}
    {operand : SyntaxTree} {rest : List (Token × SyntaxTree)}
    (operator : s.current.symbol? = some symbol) (tighter : power ≤ g.leftPower symbol)
    (allowed : symbol = '=' → .mutableVariables ≤ g.level)
    (runOperand : g.expr (g.rightPower symbol) s.advance = .ok operand s')
    (runRest : g.applications power s' = .ok rest s'') :
    g.applications power s = .ok ((s.current, operand) :: rest) s'' := by
  have shorter : s'.pending.length ≤ s.advance.pending.length := by
    have forward := (g.steady_expr _ (g.rightPower symbol)).forward_length
      (Nat.le_refl s.advance.pending.length)
    rwa [runOperand] at forward
  have tail : g.operatorTail g.expr power s.advance.pending.length s' = .ok rest s'' :=
    (g.operatorTail_eq_applications power shorter).trans runRest
  have step : (advance >>= fun operator => g.expr (g.rightPower symbol) >>= fun operand =>
      g.operatorTail g.expr power s.advance.pending.length >>= fun rest =>
      pure ((operator, operand) :: rest)) s = .ok ((s.current, operand) :: rest) s'' := by
    rw [bind_ok (advance_apply s), bind_ok runOperand, bind_ok tail]
    rfl
  rw [g.applications_of_some operator]
  unfold operatorTail
  rw [bind_ok (current_apply s), operator]
  simp only [if_neg (Int32.not_lt.mpr tighter)]
  split
  · rename_i assignment
    have level : requireLevel g.level .mutableVariables "assignment" s = .ok () s := by
      rw [requireLevel_apply, if_pos (allowed assignment)]
    exact (bind_ok level _).trans step
  · exact step

end Grammar

end OpenExpr
