import OpenExpr.Proofs.Grammar.Derivation
import OpenExpr.Proofs.Grammar.Recognises

namespace OpenExpr

open Parse

namespace Grammar

variable (g : Grammar) {e : Int32 → Parse SyntaxTree}

theorem hasWord_primary : HasWord g.level fun (_ : SyntaxTree) => g.Allows .primary := by
  obtain ⟨t, name, lexed⟩ := Token.exists_identifier g.level
  exact ⟨⟨.reference, Span.null, "", [], []⟩, [t], AllLexed.nil.cons lexed, .reference name⟩

theorem hasWord_operand : HasWord g.level fun (_ : SyntaxTree) => g.Allows .operand := by
  obtain ⟨a, w, lexed, derived⟩ := g.hasWord_primary
  exact ⟨a, w, lexed, .primary derived⟩

theorem hasWord_expr : HasWord g.level fun (_ : SyntaxTree) => g.Allows .expr := by
  obtain ⟨a, w, lexed, derived⟩ := g.hasWord_operand
  exact ⟨a, w, lexed, derived.exprOfOperand⟩

theorem CommaSeparated.exprs {w : List Token} (separated : CommaSeparated (g.Allows .expr) w) :
    g.Allows .exprs w := by
  induction separated with
  | one item => exact .exprsOne item
  | more item comma _ ih => exact .exprsMore item comma ih

theorem CommaSeparated.bindings {w : List Token}
    (separated : CommaSeparated (g.Allows .binding) w) : g.Allows .bindings w := by
  induction separated with
  | one item => exact .bindingsOne item
  | more item comma _ ih => exact .bindingsMore item comma ih

theorem recognises_keyword {level : Level} (word : Keyword) (reserved : word.level ≤ level) :
    Recognises level (expect (.keyword word)) fun t w => w = [t] ∧ t.kind = .keyword word :=
  recognises_expect (by simp) (Token.exists_keyword reserved)

theorem recognises_openParen (level : Level) :
    Recognises level (expect .openParen) fun t w => w = [t] ∧ t.kind = .openParen :=
  recognises_expect (by decide) (Token.exists_openParen level)

theorem recognises_closeParen (level : Level) :
    Recognises level (expect .closeParen) fun t w => w = [t] ∧ t.kind = .closeParen :=
  recognises_expect (by decide) (Token.exists_closeParen level)

theorem recognises_comma (level : Level) :
    Recognises level (expect .comma) fun t w => w = [t] ∧ t.kind = .comma :=
  recognises_expect (by decide) (Token.exists_comma level)

theorem recognises_identifier (level : Level) :
    Recognises level (expect .identifier) fun t w => w = [t] ∧ t.kind = .identifier :=
  recognises_expect (by decide) (Token.exists_identifier level)

theorem takes_constant {s : TokenStream} {t : Token} {rest : List Token}
    (pending : s.pending = t :: rest) (lexed : AllLexed g.level s.pending) (number : t.kind = .number) :
    Takes g.level (fun _ => g.Allows .primary) s (constant s) := by
  have numeral := (lexed t (by simp [pending])).numeral number
  refine takes_advance pending lexed (M := fun _ w => w = []) ?_ ?_
  · rw [if_pos numeral]
    exact recognises_pure _
  · rintro _ _ rfl
    exact .number number

theorem takes_nameOrCall (inner : ∀ power, Recognises g.level (e power) fun _ => g.Allows .expr)
    {s : TokenStream} {t : Token} {rest : List Token} (pending : s.pending = t :: rest)
    (lexed : AllLexed g.level s.pending) (name : t.kind = .identifier) :
    Takes g.level (fun _ => g.Allows .primary) s (nameOrCall e s) := by
  have finish (arguments : List SyntaxTree) := (recognises_closeParen g.level).bind fun _ =>
    recognises_node .functionCall t.span.start t.text arguments
  refine takes_advance pending lexed (M := fun _ w => g.Allows .primary (t :: w)) ?_ fun _ _ => id
  refine recognises_choice (P := fun l => l.kind = .openParen)
    (M := fun l _ w => g.Allows .primary (t :: l :: w)) ?_ ?_ ?_ fun _ _ _ _ => id
  · intro l opened
    simp [opened]
  · intro l opened
    refine recognises_current fun r => ?_
    split
    · refine ((recognises_pure []).bind fun _ => finish _).imp ?_
      rintro _ _ ⟨_, _, _, rfl, rfl, r, _, _, rfl, ⟨rfl, closed⟩, rfl⟩
      exact .callEmpty name opened closed
    · refine (recognises_remaining fun budget =>
        (recognises_commaSeparated (inner 0) budget).bind finish).imp ?_
      rintro _ _ ⟨_, v, _, rfl, separated, r, _, _, rfl, ⟨rfl, closed⟩, rfl⟩
      exact .call name opened closed (CommaSeparated.exprs g separated)
  · refine (recognises_pure _).imp ?_
    rintro _ _ rfl
    exact .reference name

theorem takes_parenthesised (inner : ∀ power, Recognises g.level (e power) fun _ => g.Allows .expr)
    {s : TokenStream} {t : Token} {rest : List Token} (pending : s.pending = t :: rest)
    (lexed : AllLexed g.level s.pending) (opened : t.kind = .openParen) :
    Takes g.level (fun _ => g.Allows .primary) s (parenthesised e s) := by
  refine takes_advance pending lexed ((inner 0).bind fun _ =>
    (recognises_closeParen g.level).bind fun _ => recognises_node _ _ _ _) ?_
  rintro _ _ ⟨_, w, _, rfl, derived, r, _, _, rfl, ⟨rfl, closed⟩, rfl⟩
  exact .paren opened closed derived

theorem takes_conditional (inner : ∀ power, Recognises g.level (e power) fun _ => g.Allows .expr)
    {s : TokenStream} {t : Token} {rest : List Token} (pending : s.pending = t :: rest)
    (lexed : AllLexed g.level s.pending) (word : t.kind = .keyword .ifWord) :
    Takes g.level (fun _ => g.Allows .primary) s (conditional e s) := by
  have reserved : Level.controlFlow ≤ g.level := (lexed t (by simp [pending])).keyword_level word
  refine takes_advance pending lexed ((inner 0).bind fun _ =>
    (recognises_keyword .thenWord reserved).bind fun _ => (inner 0).bind fun _ =>
    (recognises_keyword .elseWord reserved).bind fun _ => (inner 0).bind fun _ =>
    recognises_node _ _ _ _) ?_
  rintro _ _ ⟨_, a, _, rfl, first, t, _, _, rfl, ⟨rfl, thenWord⟩, _, b, _, rfl, second,
    e, _, _, rfl, ⟨rfl, elseWord⟩, _, c, _, rfl, third, rfl⟩
  rw [List.append_nil]
  exact .conditional word thenWord elseWord first second third

theorem isAssignment_ne_end {t : Token} (assign : t.isOperator '=' = true) :
    t.kind ≠ .endOfInput := by
  intro finish
  rw [Token.isOperator_iff, Token.symbol?_eq_none_of_kind (by rw [finish]; decide)] at assign
  cases assign

/-- The part of a loop behind its condition. -/
inductive LoopEnd (g : Grammar) : List Token → Prop
  | bare {i c} : i.kind = .keyword .inWord → g.Allows .expr c → LoopEnd g (i :: c)
  | step {d s i c} : d.kind = .comma → i.kind = .keyword .inWord → g.Allows .expr s →
      g.Allows .expr c → LoopEnd g (d :: (s ++ i :: c))

theorem LoopEnd.loop {f x q d : Token} {a b rest : List Token} (finish : LoopEnd g rest)
    (word : f.kind = .keyword .forWord) (name : x.kind = .identifier) (assign : q.symbol? = some '=')
    (start : g.Allows .expr a) (comma : d.kind = .comma) (condition : g.Allows .expr b) :
    g.Allows .primary (f :: x :: q :: (a ++ d :: (b ++ rest))) := by
  cases finish with
  | bare inWord body => exact .loop word name assign comma inWord start condition body
  | step comma' inWord step body =>
    exact .loopStep word name assign comma comma' inWord start condition step body

theorem takes_forLoop (inner : ∀ power, Recognises g.level (e power) fun _ => g.Allows .expr)
    {s : TokenStream} {t : Token} {rest : List Token} (pending : s.pending = t :: rest)
    (lexed : AllLexed g.level s.pending) (word : t.kind = .keyword .forWord) :
    Takes g.level (fun _ => g.Allows .primary) s (forLoop e s) := by
  have reserved : Level.controlFlow ≤ g.level := (lexed t (by simp [pending])).keyword_level word
  have body (initializer condition : SyntaxTree) (step : List SyntaxTree) :=
    (recognises_keyword .inWord reserved).bind fun _ => (inner 0).bind fun body =>
      recognises_node .forLoop t.span.start "" ([initializer, condition] ++ step ++ [body])
  have assignment : ∃ q : Token, q.isOperator '=' = true ∧ q.IsLexed g.level := by
    obtain ⟨q, assign, lexed⟩ := Token.exists_assignment g.level
    exact ⟨q, Token.isOperator_iff.mpr assign, lexed⟩
  refine takes_advance pending lexed ((recognises_identifier g.level).bind (M := fun _ _ w =>
    ∃ q a d b v, w = q :: (a ++ d :: (b ++ v)) ∧ q.symbol? = some '=' ∧ g.Allows .expr a ∧
      d.kind = .comma ∧ g.Allows .expr b ∧ LoopEnd g v) fun name => ?_) ?_
  · refine recognises_required (fun _ => isAssignment_ne_end) assignment (fun q assign =>
      (inner 0).bind fun value =>
      (recognises_node .initializer name.span.start name.text [value]).bind fun initializer =>
      (recognises_comma g.level).bind fun _ => (inner 0).bind (M := fun _ _ => LoopEnd g)
      fun condition => recognises_eat .comma (by decide) ((inner 0).bind fun step =>
        (recognises_pure [step]).bind fun step => body initializer condition step)
        (((recognises_pure []).bind fun step => body initializer condition step).imp ?_) ?_) ?_
    · rintro _ _ ⟨_, _, _, rfl, rfl, i, _, _, rfl, ⟨rfl, inWord⟩, _, c, _, rfl, derived, rfl⟩
      rw [List.append_nil]
      exact .bare inWord derived
    · rintro d _ _ comma ⟨_, s, _, rfl, step, _, _, _, rfl, rfl, i, _, _, rfl,
        ⟨rfl, inWord⟩, _, c, _, rfl, derived, rfl⟩
      rw [List.append_nil]
      exact .step comma inWord step derived
    · rintro q _ _ assign ⟨_, a, _, rfl, start, _, _, _, rfl, rfl, d, _, _, rfl, ⟨rfl, comma⟩,
        _, b, v, rfl, condition, finish⟩
      exact ⟨q, a, d, b, v, rfl, Token.isOperator_iff.mp assign, start, comma, condition, finish⟩
  · rintro _ _ ⟨x, _, _, rfl, ⟨rfl, name⟩, q, a, d, b, v, rfl, assign, start, comma, condition,
      finish⟩
    exact finish.loop g word name assign start comma condition

theorem recognises_initializer
    (inner : ∀ power, Recognises g.level (e power) fun _ => g.Allows .expr) :
    Recognises g.level (initializer e) fun _ => g.Allows .binding := by
  refine ((recognises_identifier g.level).bind (M := fun _ _ w => w = [] ∨
    ∃ q v, w = q :: v ∧ q.symbol? = some '=' ∧ g.Allows .expr v) fun name => ?_).imp ?_
  · have finish (value : List SyntaxTree) : Recognises g.level
        (Parse.node .initializer name.span.start name.text value) fun _ w => w = [] :=
      recognises_node .initializer name.span.start name.text value
    refine recognises_choice (fun _ => isAssignment_ne_end)
      (fun _ _ => (inner 0).bind fun value => (recognises_pure [value]).bind finish) ?_ ?_
    · refine ((recognises_pure []).bind finish).imp ?_
      rintro _ _ ⟨_, _, _, rfl, rfl, rfl⟩
      exact .inl rfl
    · rintro q _ _ assign ⟨_, v, _, rfl, derived, _, _, _, rfl, rfl, rfl⟩
      exact .inr ⟨q, v, by simp, Token.isOperator_iff.mp assign, derived⟩
  · rintro _ _ ⟨_, _, _, rfl, ⟨rfl, name⟩, rfl | ⟨q, v, rfl, assign, derived⟩⟩
    · exact .bindingBare name
    · exact .bindingValue name assign derived

theorem takes_varIn (inner : ∀ power, Recognises g.level (e power) fun _ => g.Allows .expr)
    {s : TokenStream} {t : Token} {rest : List Token} (pending : s.pending = t :: rest)
    (lexed : AllLexed g.level s.pending) (word : t.kind = .keyword .varWord) :
    Takes g.level (fun _ => g.Allows .primary) s (varIn e s) := by
  have required : Level.mutableVariables ≤ g.level :=
    (lexed t (by simp [pending])).keyword_level word
  have reserved : Level.controlFlow ≤ g.level := Level.le_trans (by decide) required
  have initializers := recognises_commaSeparated (g.recognises_initializer inner)
  refine takes_advance pending lexed (recognises_remaining fun budget =>
    (initializers budget).bind fun _ => (recognises_keyword .inWord reserved).bind fun _ =>
    (inner 0).bind fun _ => recognises_node _ _ _ _) ?_
  rintro _ _ ⟨_, w, _, rfl, separated, i, _, _, rfl, ⟨rfl, inWord⟩, _, c, _, rfl, derived, rfl⟩
  rw [List.append_nil]
  exact .varIn word inWord (CommaSeparated.bindings g separated) derived

theorem recognises_primaryWith
    (inner : ∀ power, Recognises g.level (e power) fun _ => g.Allows .expr) :
    Recognises g.level (g.primaryWith e) fun _ => g.Allows .primary where
  takes s lexed := by
    unfold primaryWith
    split
    · exact takes_unexpected g.hasWord_primary s
    cases pending : s.pending with
    | nil =>
      rw [bind_ok (current_apply s), TokenStream.current_kind_of_end pending]
      exact takes_unexpected g.hasWord_primary s
    | cons t rest =>
      rw [bind_ok (current_apply s), TokenStream.current_of_pending pending]
      cases kind : t.kind with
      | number => exact g.takes_constant pending lexed kind
      | identifier => exact g.takes_nameOrCall inner pending lexed kind
      | openParen => exact g.takes_parenthesised inner pending lexed kind
      | keyword word =>
        cases word with
        | ifWord => exact g.takes_conditional inner pending lexed kind
        | forWord => exact g.takes_forLoop inner pending lexed kind
        | varWord => exact g.takes_varIn inner pending lexed kind
        | _ => exact takes_unexpected g.hasWord_primary s
      | _ => exact takes_unexpected g.hasWord_primary s
  word := g.hasWord_primary

/-- A prefix operator may take operators after its operand with it, so what is read
is an expression. -/
theorem recognises_operandWith
    (inner : ∀ power, Recognises g.level (e power) fun _ => g.Allows .expr) :
    Recognises g.level (g.operandWith e) fun _ => g.Allows .expr where
  takes s lexed := by
    have primary := (g.recognises_primaryWith inner).imp fun _ _ h => (Derives.primary h).exprOfOperand
    unfold operandWith
    rw [bind_ok (current_apply s)]
    cases operator : s.current.symbol? with
    | none => exact primary.takes s lexed
    | some symbol =>
      dsimp only
      cases known : g.operators.prefixOp? symbol with
      | none => exact takes_unexpectedDetailed g.hasWord_expr _ s
      | some op =>
        cases pending : s.pending with
        | nil =>
          rw [TokenStream.current_symbol_of_end pending] at operator
          cases operator
        | cons t rest =>
          rw [TokenStream.current_of_pending pending] at operator
          refine takes_advance pending lexed (M := fun _ w => g.Allows .expr (t :: w)) ?_ fun _ _ => id
          refine ((inner _).bind fun _ => recognises_node _ _ _ _).imp ?_
          rintro _ _ ⟨_, w, _, rfl, derived, rfl⟩
          rw [List.append_nil]
          exact derived.prefixed_expr operator (by simp [known])
  word := g.hasWord_expr

theorem recognises_operatorTail
    (inner : ∀ power, Recognises g.level (e power) fun _ => g.Allows .expr) (power : Int32)
    (budget : Nat) : Recognises g.level (g.operatorTail e power budget) fun _ => g.Allows .chain := by
  have stop : Recognises g.level (pure []) fun (_ : List (Token × SyntaxTree)) => g.Allows .chain :=
    (recognises_pure []).imp fun _ _ h => h ▸ .chainEnd
  induction budget with
  | zero => exact stop
  | succ budget ih =>
    refine ⟨fun s lexed => ?_, stop.word⟩
    unfold operatorTail
    rw [bind_ok (current_apply s)]
    cases operator : s.current.symbol? with
    | none => exact stop.takes s lexed
    | some symbol =>
      dsimp only
      split
      · exact stop.takes s lexed
      cases pending : s.pending with
      | nil =>
        rw [TokenStream.current_symbol_of_end pending] at operator
        cases operator
      | cons t rest =>
        rw [TokenStream.current_of_pending pending] at operator
        have next (allowed : symbol = '=' → .mutableVariables ≤ g.level) :
            Takes g.level (fun _ => g.Allows .chain) s ((advance >>= fun operator =>
              e (g.rightPower symbol) >>= fun operand => g.operatorTail e power budget >>=
              fun rest => pure ((operator, operand) :: rest)) s) := by
          refine takes_advance pending lexed ((inner _).bind fun _ => ih.bind fun _ =>
            recognises_pure _) ?_
          rintro _ _ ⟨_, w, _, rfl, derived, _, c, _, rfl, chain, rfl⟩
          rw [List.append_nil]
          exact derived.chain_cons (Token.isInfixAt_of_symbol? operator allowed) chain
        split
        · have verdict := requireLevel_apply g.level .mutableVariables "assignment" s
          by_cases allowed : .mutableVariables ≤ g.level
          · rw [if_pos allowed] at verdict
            rw [bind_ok verdict]
            exact next fun _ => allowed
          · rw [if_neg allowed] at verdict
            rw [bind_error verdict]
            exact takes_error rfl
        · rename_i other
          exact next fun assign => absurd assign other

theorem recognises_exprWith
    (inner : ∀ power, Recognises g.level (e power) fun _ => g.Allows .expr) (power : Int32) :
    Recognises g.level (g.exprWith e power) fun _ => g.Allows .expr := by
  refine recognises_position fun start => ?_
  refine ((g.recognises_operandWith inner).bind fun operand => recognises_remaining fun budget =>
    (g.recognises_operatorTail inner power budget).bind fun operators =>
    recognises_spanFrom start fun span => recognises_pure _).imp ?_
  rintro _ _ ⟨_, w, _, rfl, derived, _, c, _, rfl, chain, rfl⟩
  rw [List.append_nil]
  exact derived.expr_append chain

theorem recognises_exprWithin (budget : Nat) (power : Int32) :
    Recognises g.level (g.exprWithin budget power) fun _ => g.Allows .expr := by
  induction budget generalizing power with
  | zero => exact recognises_unexpected g.hasWord_expr
  | succ budget ih => exact g.recognises_exprWith ih power

/-- What is read as an expression is one, and an expression that stops too early
can be completed. -/
theorem recognises_expr (power : Int32) :
    Recognises g.level (g.expr power) fun _ => g.Allows .expr :=
  recognises_remaining fun budget => g.recognises_exprWithin budget power

end Grammar

end OpenExpr
