import OpenExpr.Proofs.Placement.Body
import OpenExpr.Proofs.TwoRuns

namespace OpenExpr

/-- If the name is that of the function behind an operator, the operator is in the table. -/
def OperatorTable.Admits (t : OperatorTable) (name : String) : Prop :=
  ∀ text c, text.toList = [c] → c.isDigit = false →
    (name = binaryFunctionName text → (t.infixOp? c).isSome = true) ∧
    (name = unaryFunctionName text → (t.prefixOp? c).isSome = true)

/-- The same is known in both environments but for the places where it was written.
The tables may differ in operators that have no function yet. -/
structure Environment.Alike (env env' : Environment) : Prop where
  options : env.options = env'.options
  anonymousCount : env.anonymousCount = env'.anonymousCount
  declarations : ∀ name : String,
    env.declarations[name]?.map Prototype.unplaced = env'.declarations[name]?.map Prototype.unplaced
  definitions : ∀ name : String, env.definitions[name]?.map FunctionDefinition.unplaced =
    env'.definitions[name]?.map FunctionDefinition.unplaced
  admitted : ∀ name, (env.callee? name).isSome = true →
    env.operators.Admits name ∧ env'.operators.Admits name

namespace Environment.Alike

variable {env env' : Environment} (alike : env.Alike env')

include alike

/-- A name is that of no function in either environment, or of like functions in both. -/
theorem callee?_cases (name : String) : env.callee? name = none ∧ env'.callee? name = none ∨
    ∃ p p', env.callee? name = some p ∧ env'.callee? name = some p' ∧ p.unplaced = p'.unplaced := by
  have defined := alike.definitions name
  have declared := alike.declarations name
  unfold callee?
  cases left : env.definitions[name]? <;> cases right : env'.definitions[name]? <;>
    simp only [left, right, Option.map_some, Option.map_none, reduceCtorEq, Option.some.injEq] at defined
  · dsimp only
    cases left : env.declarations[name]? <;> cases right : env'.declarations[name]? <;>
      simp only [left, right, Option.map_some, Option.map_none, reduceCtorEq, Option.some.injEq] at declared
    · exact .inl ⟨rfl, rfl⟩
    · exact .inr ⟨_, _, rfl, rfl, declared⟩
  · exact .inr ⟨_, _, rfl, rfl, congrArg FunctionDefinition.signature defined⟩

theorem infixOp?_of_callee {text : String} {c : Char} (sign : text.toList = [c])
    (noDigit : c.isDigit = false) {p : Prototype}
    (found : env.callee? (binaryFunctionName text) = some p) :
    ∃ op op', env.operators.infixOp? c = some op ∧ env'.operators.infixOp? c = some op' := by
  obtain ⟨left, right⟩ := alike.admitted _ (Option.isSome_of_eq_some found)
  obtain ⟨op, known⟩ := Option.isSome_iff_exists.mp ((left text c sign noDigit).1 rfl)
  obtain ⟨op', known'⟩ := Option.isSome_iff_exists.mp ((right text c sign noDigit).1 rfl)
  exact ⟨op, op', known, known'⟩

theorem prefixOp?_of_callee {text : String} {c : Char} (sign : text.toList = [c])
    (noDigit : c.isDigit = false) {p : Prototype}
    (found : env.callee? (unaryFunctionName text) = some p) :
    ∃ op op', env.operators.prefixOp? c = some op ∧ env'.operators.prefixOp? c = some op' := by
  obtain ⟨left, right⟩ := alike.admitted _ (Option.isSome_of_eq_some found)
  obtain ⟨op, known⟩ := Option.isSome_iff_exists.mp ((left text c sign noDigit).2 rfl)
  obtain ⟨op', known'⟩ := Option.isSome_iff_exists.mp ((right text c sign noDigit).2 rfl)
  exact ⟨op, op', known, known'⟩

end Environment.Alike

theorem Expr.Alike.builtIn {left left' right right' : Expr} (sameLeft : left.Alike left')
    (sameRight : right.Alike right') (op : BuiltIn) (span span' : Span) :
    (Expr.builtIn op left right span).Alike (.builtIn op left' right' span') where
  unplaced := by simp only [Expr.unplaced, sameLeft.unplaced, sameRight.unplaced]
  sound := by simp only [errors, sameLeft.sound, sameRight.sound, List.append_nil]

theorem Expr.AllAlike.nil : AllAlike [] [] where
  unplaced := rfl
  sound := rfl

theorem Expr.AllAlike.cons {e e' : Expr} {es es' : List Expr} (first : e.Alike e')
    (rest : AllAlike es es') : AllAlike (e :: es) (e' :: es') where
  unplaced := by simp only [unplacedAll, first.unplaced, rest.unplaced]
  sound := by simp only [errorsAll, first.sound, rest.sound, List.append_nil]

theorem Expr.AllAlike.call {es es' : List Expr} (same : AllAlike es es') {p p' : Prototype}
    (callee : p.unplaced = p'.unplaced) (span span' : Span) :
    (Expr.call p es span).Alike (.call p' es' span') where
  unplaced := by simp only [Expr.unplaced, same.unplaced, callee]
  sound := same.sound

theorem Expr.Alike.conditional {c c' t t' e e' : Expr} {l l' : Local} (condition : c.Alike c')
    (yes : t.Alike t') (no : e.Alike e') (result : l.Alike l') (span span' : Span) :
    (Expr.conditional c t e l span).Alike (.conditional c' t' e' l' span') where
  unplaced := by
    simp only [Expr.unplaced, condition.unplaced, yes.unplaced, no.unplaced, result.unplaced]
  sound := by simp only [errors, condition.sound, yes.sound, no.sound, List.append_nil]

theorem Local.Alike.forLoop {l l' : Local} {c c' s s' b b' : Expr} (counter : l.Alike l')
    (condition : c.Alike c') (step : s.Alike s') (body : b.Alike b') (span span' : Span) :
    (Expr.forLoop l c s b span).Alike (.forLoop l' c' s' b' span') where
  unplaced := by
    simp only [Expr.unplaced, counter.unplaced, condition.unplaced, step.unplaced, body.unplaced]
  sound := by
    simp only [Expr.errors, counter.sound, condition.sound, step.sound, body.sound, List.append_nil]

theorem Local.AllAlike.nil : AllAlike [] [] where
  unplaced := rfl
  sound := rfl

theorem Local.AllAlike.cons {l l' : Local} {ls ls' : List Local} (first : l.Alike l')
    (rest : AllAlike ls ls') : AllAlike (l :: ls) (l' :: ls') where
  unplaced := by simp only [unplacedAll, first.unplaced, rest.unplaced]
  sound := by simp only [errorsAll, first.sound, rest.sound, List.append_nil]

theorem Local.AllAlike.varIn {ls ls' : List Local} {b b' : Expr} (locals : AllAlike ls ls')
    (body : b.Alike b') (span span' : Span) :
    (Expr.varIn ls b span).Alike (.varIn ls' b' span') where
  unplaced := by simp only [Expr.unplaced, locals.unplaced, body.unplaced]
  sound := by simp only [Expr.errors, locals.sound, body.sound, List.append_nil]

theorem Expr.Alike.initialized {e e' : Expr} (value : e.Alike e') (name : String)
    (span span' : Span) :
    (Local.initialized { name, isGenerated := false, span } e).Alike
      (.initialized { name, isGenerated := false, span := span' } e') where
  unplaced := by simp only [Local.unplaced, Variable.unplaced, value.unplaced]
  sound := value.sound

namespace Resolve

variable {α β α' β' : Type} {env env' : Environment} {depth : Nat}

/-- Both resolutions succeed with related values or both fail, in bodies that stay alike. -/
abbrev Agrees (depth : Nat) (R : α → α' → Prop) (p : Resolve α) (q : Resolve α') : Prop :=
  Related (Body.Alike depth) (fun _ _ => True) R p q

/-- An operator whose function is known is known itself, and without its function it
has no meaning either way. -/
theorem agrees_apply (alike : env.Alike env') {left left' right right' : Expr}
    (sameLeft : left.Alike left') (sameRight : right.Alike right') {o o' : Token} (same : o.Alike o')
    (operator : o.kind = .operator) :
    Agrees depth Expr.Alike (apply env left o right) (apply env' left' o' right') := by
  obtain ⟨c, sign, noDigit⟩ := same.sign operator
  have symbol : o.symbol? = some c := by simp [Token.symbol?, operator, sign]
  unfold apply
  rw [← same.symbol?, ← same.text, symbol]
  dsimp only [Option.getD_some]
  cases BuiltIn.ofSymbol? c with
  | some op => exact related_pure (sameLeft.builtIn sameRight op _ _)
  | none =>
    dsimp only
    rcases alike.callee?_cases (binaryFunctionName o.text) with
      ⟨missing, missing'⟩ | ⟨p, p', found, found', callee⟩
    · rw [missing, missing']
      cases env.operators.infixOp? c <;> cases env'.operators.infixOp? c <;>
        exact related_throw trivial
    · obtain ⟨op, op', known, known'⟩ := alike.infixOp?_of_callee sign noDigit found
      rw [found, found', known, known']
      exact related_pure ((Expr.AllAlike.cons sameLeft (.cons sameRight .nil)).call callee _ _)

theorem agrees_unaryCallee (alike : env.Alike env') {text : String} {c : Char}
    (sign : text.toList = [c]) (noDigit : c.isDigit = false) (span span' : Span) :
    Agrees depth (fun p p' => p.unplaced = p'.unplaced) (unaryCallee env c text span)
      (unaryCallee env' c text span') := by
  unfold unaryCallee
  dsimp only
  rcases alike.callee?_cases (unaryFunctionName text) with
    ⟨missing, missing'⟩ | ⟨p, p', found, found', callee⟩
  · rw [missing, missing']
    cases env.operators.prefixOp? c <;> cases env'.operators.prefixOp? c <;>
      exact related_throw trivial
  · obtain ⟨op, op', known, known'⟩ := alike.prefixOp?_of_callee sign noDigit found
    rw [found, found', known, known']
    exact related_pure callee

theorem agrees_reference {name : String} (plain : IsPlain name) (span span' : Span) :
    Agrees depth Expr.Alike (reference name span) (reference name span') := by
  refine related_get fun b b' alike => ?_
  have bound := alike.scopes.find? plain
  cases left : b.scopes.find? name <;> cases right : b'.scopes.find? name <;>
    simp only [left, right, Option.map_some, Option.map_none, reduceCtorEq, Option.some.injEq] at bound
  · exact ⟨trivial, alike⟩
  · refine ⟨⟨?_, rfl⟩, alike⟩
    simp only [Expr.unplaced, bound]

theorem agrees_inScope {R : α → α' → Prop} {p : Resolve α} {q : Resolve α'}
    (part : Agrees (depth + 2) R p q) : Agrees (depth + 1) R (inScope p) (inScope q) := by
  intro b b' alike
  have agree := part _ _ alike.push
  unfold inScope
  cases run : p { b with scopes := b.scopes.push } <;>
    cases run' : q { b' with scopes := b'.scopes.push } <;> rw [run, run'] at agree
  · exact ⟨agree.1, agree.2.pop⟩
  · exact agree.elim
  · exact agree.elim
  · exact ⟨agree.1, agree.2.pop⟩

theorem unplacedAll_concat {b b' : Body} (alike : b.Alike depth b') {l l' : Local}
    (same : l.Alike l') :
    Local.unplacedAll (b.locals ++ [l]) = Local.unplacedAll (b'.locals ++ [l']) := by
  rw [Local.unplacedAll_append, Local.unplacedAll_append, alike.locals]
  simp only [Local.unplacedAll, same.unplaced]

theorem insert_declared {b b' : Body} (alike : b.Alike depth b') {l l' : Local} (same : l.Alike l') :
    (b.scopes.insert l.name (.declared l.declared)).Alike
      (b'.scopes.insert l'.name (.declared l'.declared)) := by
  rw [← same.name]
  exact alike.scopes.insert l.name (congrArg Binding.declared same.declared)

theorem agrees_declare {l l' : Local} (same : l.Alike l') :
    Agrees (depth + 2) (fun _ _ => True) (declare l) (declare l') := by
  intro b b' alike
  exact ⟨trivial, insert_declared alike same, unplacedAll_concat alike same, alike.results,
    alike.depth_eq, alike.hidden.insert alike.deep l.name _⟩

/-- The variable for a result has a name that cannot be written, so it may be declared
in the outermost scope. -/
theorem agrees_declareResult (span span' : Span) :
    Agrees depth Local.Alike (declareResult span) (declareResult span') := by
  intro b b' alike
  have results := alike.results
  have same : (Local.slot { name := "$ifresult$" ++ toString b.results, isGenerated := true, span }).Alike
      (.slot { name := "$ifresult$" ++ toString b'.results, isGenerated := true, span := span' }) := by
    rw [results]
    exact ⟨rfl, rfl⟩
  have reserved : ¬ IsPlain ("$ifresult$" ++ toString b.results) := by
    simp [IsPlain, String.toList_append]
  exact ⟨same, insert_declared alike same, unplacedAll_concat alike same, congrArg (· + 1) results,
    alike.depth_eq, alike.hidden.insert_hidden reserved _⟩

mutual

/-- Trees that differ in the places of their nodes mean the same. -/
theorem agrees_expr (alike : env.Alike env') {t t' : SyntaxTree} (same : t.Alike t') (depth : Nat) :
    Agrees (depth + 1) Expr.Alike (expr env t) (expr env' t') := by
  cases same with
  | @node kind text span span' children children' operators operators' writes sameChildren sameOperators =>
    unfold expr
    cases kind with
    | expression =>
      cases sameChildren with
      | nil => exact related_throw trivial
      | cons operand _ =>
        exact (agrees_expr alike operand depth).bind fun _ _ left =>
          agrees_applyAll alike sameOperators left depth
    | paren =>
      cases sameChildren with
      | nil => exact related_throw trivial
      | cons inner _ => exact agrees_expr alike inner depth
    | constant =>
      dsimp only
      cases Decimal.float? text with
      | none => exact related_throw trivial
      | some value => exact related_pure ⟨rfl, rfl⟩
    | reference => exact agrees_reference writes span span'
    | functionCall =>
      dsimp only
      rcases alike.callee?_cases text with ⟨missing, missing'⟩ | ⟨p, p', found, found', callee⟩
      · rw [missing, missing']
        exact related_throw trivial
      · rw [found, found']
        exact (agrees_exprs alike sameChildren depth).bind fun _ _ arguments =>
          related_pure (arguments.call callee span span')
    | unaryOperator =>
      obtain ⟨c, sign, noDigit⟩ := writes
      simp only [SyntaxTree.symbol?, sign, List.head?_cons, Option.getD_some]
      refine (agrees_unaryCallee alike sign noDigit span span').bind fun _ _ callee => ?_
      cases sameChildren with
      | nil => exact related_throw trivial
      | cons operand _ =>
        exact (agrees_expr alike operand depth).bind fun _ _ argument =>
          related_pure ((Expr.AllAlike.cons argument .nil).call callee span span')
    | conditional =>
      cases sameChildren with
      | nil => exact related_throw trivial
      | cons first rest =>
        refine (agrees_expr alike first depth).bind fun _ _ condition => ?_
        cases rest with
        | nil => exact related_throw trivial
        | cons second rest =>
          refine (agrees_expr alike second depth).bind fun _ _ yes => ?_
          cases rest with
          | nil => exact related_throw trivial
          | cons third _ =>
            exact (agrees_expr alike third depth).bind fun _ _ no =>
              (agrees_declareResult span span').bind fun _ _ result =>
              related_pure (condition.conditional yes no result span span')
    | forLoop =>
      cases sameChildren with
      | nil => exact related_throw trivial
      | cons first rest =>
        refine (agrees_initializer alike first depth).bind fun _ _ counter =>
          agrees_inScope ((agrees_declare counter).bind fun _ _ _ => ?_)
        cases rest with
        | nil => exact related_throw trivial
        | cons second rest =>
          refine (agrees_expr alike second (depth + 1)).bind fun _ _ condition => ?_
          cases rest with
          | nil => exact related_throw trivial
          | cons third rest =>
            cases rest with
            | nil =>
              exact (agrees_expr alike third (depth + 1)).bind fun _ _ body =>
                related_pure (counter.forLoop condition ⟨rfl, rfl⟩ body span span')
            | cons last _ =>
              exact (agrees_expr alike third (depth + 1)).bind fun _ _ step =>
                (agrees_expr alike last (depth + 1)).bind fun _ _ body =>
                related_pure (counter.forLoop condition step body span span')
    | varIn =>
      exact (agrees_inScope (agrees_bindings alike sameChildren _ _ depth)).bind fun _ _ parts =>
        related_pure (parts.1.varIn parts.2 span span')
    | _ => exact related_throw trivial
termination_by sizeOf t

theorem agrees_exprs (alike : env.Alike env') {ts ts' : List SyntaxTree}
    (same : SyntaxTree.AllAlike ts ts') (depth : Nat) :
    Agrees (depth + 1) Expr.AllAlike (exprs env ts) (exprs env' ts') := by
  cases same with
  | nil => exact related_pure .nil
  | cons first rest =>
    exact (agrees_expr alike first depth).bind fun _ _ e =>
      (agrees_exprs alike rest depth).bind fun _ _ es => related_pure (.cons e es)
termination_by sizeOf ts

theorem agrees_applyAll (alike : env.Alike env') {operators operators' : List (Token × SyntaxTree)}
    (same : SyntaxTree.OperatorsAlike operators operators') {left left' : Expr}
    (sameLeft : left.Alike left') (depth : Nat) :
    Agrees (depth + 1) Expr.Alike (applyAll env left operators) (applyAll env' left' operators') := by
  cases same with
  | nil => exact related_pure sameLeft
  | cons token operator operand rest =>
    exact (agrees_expr alike operand depth).bind fun _ _ right =>
      (agrees_apply alike sameLeft right token operator).bind fun _ _ whole =>
      agrees_applyAll alike rest whole depth
termination_by sizeOf operators

theorem agrees_initializer (alike : env.Alike env') {t t' : SyntaxTree} (same : t.Alike t')
    (depth : Nat) :
    Agrees (depth + 1) Local.Alike (initializer env t) (initializer env' t') := by
  cases same with
  | @node kind text span span' children children' operators operators' _ sameChildren _ =>
    unfold initializer
    dsimp only
    by_cases isInitializer : kind = .initializer
    · rw [if_pos isInitializer, if_pos isInitializer]
      cases sameChildren with
      | nil =>
        have zero : (Expr.constant 0 span).Alike (.constant 0 span') := ⟨rfl, rfl⟩
        exact related_pure (zero.initialized text span span')
      | cons value _ =>
        exact (agrees_expr alike value depth).bind fun _ _ value =>
          related_pure (value.initialized text span span')
    · rw [if_neg isInitializer, if_neg isInitializer]
      exact related_throw trivial
termination_by sizeOf t

theorem agrees_bindings (alike : env.Alike env') {ts ts' : List SyntaxTree}
    (same : SyntaxTree.AllAlike ts ts') (missing missing' : Diagnostic) (depth : Nat) :
    Agrees (depth + 2) (fun a a' => Local.AllAlike a.1 a'.1 ∧ a.2.Alike a'.2)
      (bindings env missing ts) (bindings env' missing' ts') := by
  cases same with
  | nil => exact related_throw trivial
  | cons first rest =>
    cases rest with
    | nil =>
      exact (agrees_expr alike first (depth + 1)).bind fun _ _ body => related_pure ⟨.nil, body⟩
    | cons second rest =>
      exact (agrees_initializer alike first (depth + 1)).bind fun _ _ l =>
        (agrees_declare l).bind fun _ _ _ =>
        (agrees_bindings alike (.cons second rest) missing missing' depth).bind fun _ _ parts =>
        related_pure ⟨.cons l parts.1, parts.2⟩
termination_by sizeOf ts

end

end Resolve

end OpenExpr
