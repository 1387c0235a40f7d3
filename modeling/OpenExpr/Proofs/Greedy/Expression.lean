import OpenExpr.Proofs.Greedy.Builds
import OpenExpr.Proofs.Registry.Table

namespace OpenExpr

open Parse SyntaxTree

theorem TokenStream.length_pending_of_symbol? {s : TokenStream} {symbol : Char}
    (sign : s.current.symbol? = some symbol) :
    s.pending.length = s.advance.pending.length + 1 := by
  cases pending : s.pending with
  | nil =>
    rw [current_symbol_of_end pending] at sign
    cases sign
  | cons t rest => rw [pending_advance_of_pending pending, List.length_cons]

/-- In front of operands there are none but prefix operators. -/
def OperatorTable.KeepsSides (table : OperatorTable) : Prop :=
  ∀ c op, table.prefixOp? c = some op → op.fixity = .prefixed

theorem OperatorTable.KeepsSides.operandPower_eq {table : OperatorTable} (sides : table.KeepsSides)
    {c : Char} {op : Operator} (known : table.prefixOp? c = some op) :
    op.operandPower = op.precedence := by
  simp [Operator.operandPower, sides c op known]

namespace Grammar

variable (g : Grammar) {n : Nat}

/-- Every expression of at most `n` tokens is built of the tokens that are read. -/
def BuildsWithin (n : Nat) : Prop :=
  ∀ power, Consumes n (g.expr power) fun t => g.Builds (.expr power t)

theorem consumes_constant :
    ConsumesFrom (n + 1) (fun t => t.kind = .number) constant fun t => g.Builds (.operand t) := by
  refine consumesFrom_advance (M := fun token t w _ =>
    t = { kind := .constant, span := token.span, text := token.text } ∧ w = []) (by simp +contextual)
    (fun token _ => ?_) ?_
  · split
    · exact consumes_pure _
    · intro s a s' _ run
      cases run
  · rintro token _ _ rest number ⟨rfl, rfl⟩
    exact .number number

theorem consumes_parenthesised (inner : g.BuildsWithin n) :
    ConsumesFrom (n + 1) (fun t => t.kind = .openParen) (parenthesised g.expr)
      fun t => g.Builds (.operand t) := by
  refine consumesFrom_advance (by simp +contextual) (fun token _ => (inner 0).bind fun _ =>
    (consumes_expect _ (by decide)).bind fun _ => consumes_node _ _ _ _) ?_
  rintro l _ _ rest opened ⟨t, w, _, rfl, read, r, _, _, rfl, ⟨rfl, closed⟩, rfl, span, rfl⟩
  exact .paren opened closed read

theorem consumes_conditional (inner : g.BuildsWithin n) :
    ConsumesFrom (n + 1) (fun t => t.kind = .keyword .ifWord) (conditional g.expr)
      fun t => g.Builds (.operand t) := by
  refine consumesFrom_advance (by simp +contextual) (fun token _ => (inner 0).bind fun _ =>
    (consumes_expect _ (by decide)).bind fun _ => (inner 0).bind fun _ =>
    (consumes_expect _ (by decide)).bind fun _ => (inner 0).bind fun _ => consumes_node _ _ _ _) ?_
  rintro i _ _ rest word ⟨x, a, _, rfl, first, t, _, _, rfl, ⟨rfl, thenWord⟩, y, b, _, rfl, second,
    e, _, _, rfl, ⟨rfl, elseWord⟩, z, c, _, rfl, third, rfl, span, rfl⟩
  simp only [List.append_nil, List.nil_append, List.cons_append, List.append_assoc] at first second third ⊢
  exact .conditional word thenWord elseWord first second third

theorem consumes_nameOrCall (inner : g.BuildsWithin n) :
    ConsumesFrom (n + 1) (fun t => t.kind = .identifier) (nameOrCall g.expr)
      fun t => g.Builds (.operand t) := by
  have arguments := consumes_commaSeparated (M := fun ts => g.Builds (.arguments ts)) (inner 0)
    (fun _ _ _ => .argument) fun _ _ _ _ _ _ => .arguments
  have finish (name : Token) (ts : List SyntaxTree) := (consumes_expect (n := n)
    .closeParen (by decide)).bind fun _ =>
      consumes_node .functionCall name.span.start name.text ts
  refine consumesFrom_advance (M := fun name t w rest => g.Builds (.operand t) (name :: w) rest)
    (by simp +contextual) (fun name called => ?_) fun _ _ _ _ _ => id
  refine consumes_advance_or (P := fun l => l.kind = .openParen)
    (M := fun l t w rest => g.Builds (.operand t) (name :: l :: w) rest) (by simp +contextual)
    (fun l opened => ?_) ?_ fun _ _ _ _ _ => id
  · refine consumes_choice (Consumes.from ?_ _) ?_
    · refine ((consumes_pure []).bind fun ts => finish name ts).imp ?_
      rintro _ _ rest ⟨_, _, _, rfl, ⟨rfl, rfl⟩, r, _, _, rfl, ⟨rfl, closed⟩, rfl, span, rfl⟩
      exact .callEmpty called opened closed
    · refine (consumes_remaining fun budget => (arguments budget).bind fun ts => finish name ts).imp ?_
      rintro _ _ rest ⟨ts, w, _, rfl, read, r, _, _, rfl, ⟨rfl, closed⟩, rfl, span, rfl⟩
      exact .call called opened closed read
  · refine (consumes_pure _).imp ?_
    rintro _ _ rest ⟨rfl, rfl⟩
    exact .reference called

/-- The part of a loop behind its condition. -/
inductive BuildsLoopEnd (initializer condition : SyntaxTree) : SyntaxTree → List Token → List Token → Prop
  | bare {i span body c rest} : i.kind = .keyword .inWord → g.Builds (.expr 0 body) c rest →
      BuildsLoopEnd initializer condition
        { kind := .forLoop, span, children := [initializer, condition, body] } (i :: c) rest
  | step {d i span step body v c rest} : d.kind = .comma → i.kind = .keyword .inWord →
      g.Builds (.expr 0 step) v (i :: (c ++ rest)) → g.Builds (.expr 0 body) c rest →
      BuildsLoopEnd initializer condition
        { kind := .forLoop, span, children := [initializer, condition, step, body] }
        (d :: (v ++ i :: c)) rest

theorem consumes_loopEnd (inner : g.BuildsWithin n) (start : Position)
    (initializer condition : SyntaxTree) :
    Consumes n (do
      let step ← if ← Parse.eat .comma then pure [← g.expr 0] else pure []
      let _ ← Parse.expect (.keyword .inWord)
      let body ← g.expr 0
      Parse.node .forLoop start "" ([initializer, condition] ++ step ++ [body]))
      (g.BuildsLoopEnd initializer condition) := by
  have body (step : List SyntaxTree) :=
    (consumes_expect (n := n) (.keyword .inWord) (by decide)).bind fun _ =>
      (inner 0).bind fun body =>
        consumes_node .forLoop start "" ([initializer, condition] ++ step ++ [body])
  refine consumes_eat (by decide) ((inner 0).bind fun step => (consumes_pure [step]).bind body)
    (((consumes_pure []).bind body).imp ?_) ?_
  · rintro _ _ rest ⟨_, _, _, rfl, ⟨rfl, rfl⟩, i, _, _, rfl, ⟨rfl, inWord⟩, b, c, _, rfl, read, rfl,
      span, rfl⟩
    simp only [List.append_nil] at read ⊢
    exact .bare inWord read
  · rintro d _ _ rest comma ⟨step, v, _, rfl, first, _, _, _, rfl, ⟨rfl, rfl⟩, i, _, _, rfl,
      ⟨rfl, inWord⟩, b, c, _, rfl, read, rfl, span, rfl⟩
    simp only [List.append_nil, List.nil_append, List.cons_append] at first read ⊢
    exact .step comma inWord first read

theorem consumes_forLoop (inner : g.BuildsWithin n) :
    ConsumesFrom (n + 1) (fun t => t.kind = .keyword .forWord) (forLoop g.expr)
      fun t => g.Builds (.operand t) := by
  refine consumesFrom_advance (M := fun f t w rest => g.Builds (.operand t) (f :: w) rest)
    (by simp +contextual) (fun f word => ?_) fun _ _ _ _ _ => id
  refine ((consumes_expect .identifier (by decide)).bind (M := fun x t w rest =>
    x.kind = .identifier → g.Builds (.operand t) (f :: x :: w) rest) fun x => ?_).imp ?_
  · refine consumes_advance_or (P := fun q => q.isOperator '=' = true) (M := fun q t w rest =>
      x.kind = .identifier → g.Builds (.operand t) (f :: x :: q :: w) rest)
      (fun _ => isAssignment_ne_end) (fun q assign => ?_) (consumes_unexpectedDetailed_bind _ _)
      fun _ _ _ _ _ => id
    refine ((inner 0).bind fun value =>
      (consumes_node .initializer x.span.start x.text [value]).bind fun initializer =>
      (consumes_expect .comma (by decide)).bind fun _ => (inner 0).bind fun condition =>
      g.consumes_loopEnd inner f.span.start initializer condition).imp ?_
    rintro _ _ rest ⟨value, a, _, rfl, start, _, _, _, rfl, ⟨rfl, place, rfl⟩, d, _, _, rfl,
      ⟨rfl, comma⟩, condition, b, _, rfl, test, finish⟩ name
    have assigned := Token.isOperator_iff.mp assign
    cases finish with
    | bare inWord body =>
      simp only [List.nil_append, List.cons_append, List.append_assoc] at start test body ⊢
      exact .loop word name assigned comma inWord start test body
    | step comma' inWord step body =>
      simp only [List.nil_append, List.cons_append, List.append_assoc] at start test step body ⊢
      exact .loopStep word name assigned comma comma' inWord start test step body
  · rintro _ _ rest ⟨x, _, _, rfl, ⟨rfl, name⟩, read⟩
    exact read name

theorem consumes_initializer (inner : g.BuildsWithin n) :
    Consumes n (initializer g.expr) fun t => g.Builds (.binding t) := by
  refine ((consumes_expect .identifier (by decide)).bind (M := fun x t w rest =>
    x.kind = .identifier → g.Builds (.binding t) (x :: w) rest) fun x => ?_).imp ?_
  · have finish (value : List SyntaxTree) :=
      consumes_node (n := n) .initializer x.span.start x.text value
    refine consumes_advance_or (fun _ => isAssignment_ne_end)
      (fun _ _ => (inner 0).bind fun value => (consumes_pure [value]).bind finish)
      (((consumes_pure []).bind finish).imp ?_) ?_
    · rintro _ _ rest ⟨_, _, _, rfl, ⟨rfl, rfl⟩, rfl, span, rfl⟩ name
      exact .unset name
    · rintro q _ _ rest assign ⟨value, v, _, rfl, read, _, _, _, rfl, ⟨rfl, rfl⟩, rfl, span, rfl⟩ name
      simp only [List.append_nil, List.nil_append] at read ⊢
      exact .set name (Token.isOperator_iff.mp assign) read
  · rintro _ _ rest ⟨x, _, _, rfl, ⟨rfl, name⟩, read⟩
    exact read name

theorem consumes_varIn (inner : g.BuildsWithin n) :
    ConsumesFrom (n + 1) (fun t => t.kind = .keyword .varWord) (varIn g.expr)
      fun t => g.Builds (.operand t) := by
  have bindings := consumes_commaSeparated (M := fun ts => g.Builds (.bindings ts))
    (g.consumes_initializer inner) (fun _ _ _ => .binding) fun _ _ _ _ _ _ => .bindings
  refine consumesFrom_advance (by simp +contextual) (fun start _ =>
    consumes_remaining fun budget => (bindings budget).bind fun _ =>
    (consumes_expect (.keyword .inWord) (by decide)).bind fun _ =>
    (inner 0).bind fun _ => consumes_node _ _ _ _) ?_
  rintro v _ _ rest word ⟨ts, w, _, rfl, read, i, _, _, rfl, ⟨rfl, inWord⟩, body, c, _, rfl, inside,
    rfl, span, rfl⟩
  simp only [List.append_nil, List.nil_append, List.cons_append] at read inside ⊢
  exact .varIn word inWord read inside

theorem consumes_primaryWith (inner : g.BuildsWithin n) :
    Consumes (n + 1) (g.primaryWith g.expr) fun t => g.Builds (.operand t) := by
  intro s t s' small run
  unfold primaryWith at run
  split at run
  · cases run
  rw [bind_ok (current_apply s)] at run
  cases kind : s.current.kind with
  | number => exact g.consumes_constant s t s' small kind (by simpa [kind] using run)
  | identifier => exact g.consumes_nameOrCall inner s t s' small kind (by simpa [kind] using run)
  | openParen => exact g.consumes_parenthesised inner s t s' small kind (by simpa [kind] using run)
  | keyword word =>
    cases word with
    | ifWord => exact g.consumes_conditional inner s t s' small kind (by simpa [kind] using run)
    | forWord => exact g.consumes_forLoop inner s t s' small kind (by simpa [kind] using run)
    | varWord => exact g.consumes_varIn inner s t s' small kind (by simpa [kind] using run)
    | _ =>
      rw [kind] at run
      cases run
  | _ =>
    rw [kind] at run
    cases run

theorem consumes_operand (sides : g.operators.KeepsSides) (inner : g.BuildsWithin n) :
    Consumes (n + 1) g.operand fun t => g.Builds (.operand t) := by
  intro s t s' small run
  unfold operand operandWith at run
  rw [bind_ok (current_apply s)] at run
  cases sign : s.current.symbol? with
  | none =>
    rw [sign] at run
    exact g.consumes_primaryWith inner s t s' small run
  | some symbol =>
    rw [sign] at run
    cases known : g.operators.prefixOp? symbol with
    | none =>
      simp only [known] at run
      cases run
    | some op =>
      simp only [known] at run
      have power := sides.operandPower_eq known
      have prefixed := consumesFrom_advance (P := fun t => t.symbol? = some symbol)
        (L := fun t => g.Builds (.operand t)) (fun t sign => by simp [Token.kind_of_symbol? sign])
        (fun t _ => (inner op.operandPower).bind fun operand =>
          consumes_node .unaryOperator t.span.start t.text [operand]) (by
        rintro o _ _ rest sign ⟨operand, w, _, rfl, read, rfl, span, rfl⟩
        rw [List.append_nil]
        exact .prefixed sign known (power ▸ read))
      exact prefixed s t s' small sign run

theorem leftPower_eq (symbol : Char) : g.leftPower symbol = g.operators.precedence symbol := rfl

theorem endsBefore_of_pending {power : Int32} {s : TokenStream}
    (ends : ∀ symbol ∈ s.current.symbol?, g.operators.precedence symbol < power) :
    g.EndsBefore power s.pending := by
  intro t first
  cases pending : s.pending with
  | nil =>
    rw [pending] at first
    cases first
  | cons u rest =>
    rw [pending] at first
    cases first
    rwa [TokenStream.current_of_pending pending] at ends

theorem consumes_applications (inner : g.BuildsWithin n) (power : Int32) :
    ∀ m ≤ n + 1, Consumes m (g.applications power) fun applications w rest =>
      g.Builds (.operators power applications) w rest ∧ g.EndsBefore power rest := by
  intro m
  -- an operand may take any number of tokens, so the operators behind it are found by strong
  -- induction, while the operands themselves are known from `inner`
  induction m using Nat.strongRecOn with
  | ind m ih =>
    intro bound s applications s' small run
    cases sign : s.current.symbol? with
    | none =>
      rw [g.applications_of_none sign] at run
      cases run
      exact ⟨[], rfl, .noOperator, g.endsBefore_of_pending (by simp [sign])⟩
    | some symbol =>
      by_cases weaker : g.leftPower symbol < power
      · rw [g.applications_of_weaker sign weaker] at run
        cases run
        exact ⟨[], rfl, .noOperator, g.endsBefore_of_pending (by
          simpa [sign, leftPower_eq] using weaker)⟩
      have longer := s.length_pending_of_symbol? sign
      generalize left : s.advance.pending.length = k at longer
      -- the budget for the tail does not matter as long as it covers the tokens
      have tail : Consumes k (g.operatorTail g.expr power k) fun applications w rest =>
          g.Builds (.operators power applications) w rest ∧ g.EndsBefore power rest := by
        intro u applications u' short run
        rw [g.operatorTail_eq_applications power short] at run
        exact ih k (by omega) (by omega) u applications u' short run
      have step := consumesFrom_advance (P := fun t => t.symbol? = some symbol)
        (L := fun applications w rest =>
          g.Builds (.operators power applications) w rest ∧ g.EndsBefore power rest)
        (fun t sign => by simp [Token.kind_of_symbol? sign])
        (fun o _ => ((inner (g.rightPower symbol)).mono (by omega : k ≤ n)).bind fun operand =>
          tail.bind fun more => consumes_pure ((o, operand) :: more)) (by
        rintro o _ _ rest sign ⟨operand, w, _, rfl, read, more, c, _, rfl, ⟨built, ends⟩, rfl, rfl⟩
        rw [List.append_nil] at read ⊢
        exact ⟨.operator sign (Int32.not_lt.mp weaker) read built, ends⟩)
      have finish := step s applications s' (Nat.le_of_eq longer) sign
      rw [g.applications_of_some sign, left] at run
      unfold operatorTail at run
      rw [bind_ok (current_apply s), sign] at run
      simp only [if_neg weaker] at run
      split at run
      · obtain ⟨_, u, allowed, run⟩ := bind_eq_ok run
        rw [requireLevel_apply] at allowed
        split at allowed <;> cases allowed
        exact finish run
      · exact finish run

theorem buildsWithin (sides : g.operators.KeepsSides) (n : Nat) : g.BuildsWithin n := by
  induction n with
  | zero =>
    intro power s t s' small run
    have atEnd := List.eq_nil_of_length_eq_zero (Nat.le_zero.mp small)
    rw [g.expr_eq, g.exprWith_of_end power atEnd] at run
    cases run
  | succ n inner =>
    intro power s t s' small run
    have parts : Consumes (n + 1) (g.exprWith g.expr power) fun t w rest =>
        ∃ span operand applications a c,
          t = { kind := .expression, span, children := [operand], operators := applications } ∧
          w = a ++ c ∧ g.Builds (.operand operand) a (c ++ rest) ∧
          g.Builds (.operators power applications) c rest ∧ g.EndsBefore power rest := by
      rw [exprWith_expr]
      refine (consumes_position fun start => (g.consumes_operand sides inner).bind fun operand =>
        (g.consumes_applications inner power _ (Nat.le_refl _)).bind fun applications =>
        consumes_spanFrom (L := fun (t : SyntaxTree) w _ => w = [] ∧ ∃ span,
          t = { kind := .expression, span, children := [operand], operators := applications })
          start fun span => (consumes_pure _).imp ?_).imp ?_
      · rintro _ _ _ ⟨rfl, rfl⟩
        exact ⟨rfl, span, rfl⟩
      · rintro _ _ rest ⟨operand, a, _, rfl, first, applications, c, _, rfl, ⟨others, ends⟩, rfl, span, rfl⟩
        simp only [List.append_nil, List.nil_append] at first others ⊢
        exact ⟨span, operand, applications, a, c, rfl, rfl, first, others, ends⟩
    have same : g.exprWith g.expr power s = .ok t s' := by
      rw [← g.expr_eq]
      exact run
    obtain ⟨w, split, span, operand, applications, a, c, rfl, rfl, first, others, ends⟩ :=
      parts s t s' small same
    exact ⟨a ++ c, split, .expr ⟨s, s', run, split, rfl⟩ first others ends⟩

end Grammar

theorem OperatorTable.keepsSides_registerAll (definitions : List OperatorDefinition) :
    (empty.registerAll definitions).KeepsSides := by
  intro c op known
  rw [prefixOp?_registerAll, prefixOp?_empty, Option.or_none] at known
  obtain ⟨last, found, rfl⟩ := Option.map_eq_some_iff.mp known
  have chosen := (List.mem_filter.mp (List.mem_of_getLast? found)).2
  obtain ⟨symbol, fixity, precedence⟩ := last
  cases fixity <;> simp_all [Fixity.isInfix, OperatorDefinition.operator]

/-- An expression that was read is written as the tokens that were read, wherever these stand in
a source: all of them, once and in their order. What it and each expression in it took up are
just the operators that bind as tightly as it had to, up to one that does not. -/
theorem expr_faithful_and_greedy {g : Grammar} {definitions : List OperatorDefinition}
    (registered : g.operators = OperatorTable.empty.registerAll definitions) {level : Level}
    {tokens before : List Token} (lexed : Lexed level tokens) {s s' : TokenStream}
    (place : tokens = before ++ s.pending) {power : Int32} {t : SyntaxTree}
    (run : g.expr power s = .ok t s') :
    ∃ w, s.pending = w ++ s'.pending ∧ t.words = w.map Token.spelling ∧
      g.Builds (.expr power t) w s'.pending := by
  have sides : g.operators.KeepsSides := registered ▸ OperatorTable.keepsSides_registerAll definitions
  obtain ⟨w, split, built⟩ := g.buildsWithin sides s.pending.length power s t s' (Nat.le_refl _) run
  have all := lexed.isLexed
  rw [place, split] at all
  exact ⟨w, split, built.words_eq all.right.left, built⟩

/-- A prefix operator that binds less tightly than the product in which it stands. -/
def looseGrammar : Grammar :=
  { level := .mutableVariables
    operators := OperatorTable.empty.registerAll [{ symbol := '~', fixity := .prefixed, precedence := 5 }] }

/-- The operand of the prefix operator takes up the sum, but not the operator that is unknown. -/
def looseTokens : List Token :=
  tokensOf .mutableVariables "def f(x, y) 1 * ~x + y ? x;"

/-- What follows the header of the definition. -/
def looseBody : TokenStream :=
  { pending := looseTokens.drop 7, finish := .endAt .null, finish_kind := rfl }

theorem loose_prefix_faithful : ∃ t s' w, looseGrammar.expr 3 looseBody = .ok t s' ∧
    looseBody.pending = w ++ s'.pending ∧
    t.words.map Prod.snd = ["1", "*", "~", "x", "+", "y"] ∧ t.words = w.map Token.spelling ∧
    looseGrammar.Builds (.expr 3 t) w s'.pending := by
  have evaluated : (match looseGrammar.expr 3 looseBody with
      | .ok t _ => t.words.map Prod.snd
      | .error _ _ => []) = ["1", "*", "~", "x", "+", "y"] := by decide +kernel
  have place : looseTokens = looseTokens.take 7 ++ looseBody.pending := (List.take_append_drop 7 _).symm
  cases run : looseGrammar.expr 3 looseBody with
  | error e s' =>
    rw [run] at evaluated
    cases evaluated
  | ok t s' =>
    rw [run] at evaluated
    obtain ⟨w, split, words, built⟩ := expr_faithful_and_greedy (g := looseGrammar) rfl
      (lexed_tokensOf .mutableVariables _) place run
    exact ⟨t, s', w, rfl, split, evaluated, words, built⟩

end OpenExpr
