import OpenExpr.Proofs.Growth.Prefixes

namespace OpenExpr

/-- The text is that of an infix operator that only the second table has. -/
def OperatorTable.Gains (table table' : OperatorTable) (text : String) : Prop :=
  ∃ c, text.toList = [c] ∧ table.infixOp? c = none ∧ (table'.infixOp? c).isSome = true

namespace Environment

/-- The environment with another table of operators. -/
def withOperators (env : Environment) (table : OperatorTable) : Environment :=
  { env with operators := table }

/-- No operator that only the table has is backed by a function. -/
def LacksGained (env : Environment) (table : OperatorTable) : Prop :=
  ∀ text, IsSign text → env.operators.Gains table text → env.callee? (binaryFunctionName text) = none

end Environment

variable {σ α β : Type} {late : String → Prop} {missing : Prop} {φ : σ → σ}

/-- The second outcome is the first, unless that is an operator which was not known. If
`missing` holds, the function of that operator is missed instead, at the same place. -/
inductive Echo (late : String → Prop) (missing : Prop) (φ : σ → σ) :
    EStateM.Result Diagnostic σ α → EStateM.Result Diagnostic σ α → Prop
  | ok {a s} : Echo late missing φ (.ok a s) (.ok a (φ s))
  | error {d s} : Echo late missing φ (.error d s) (.error d (φ s))
  | late {text span s y} : late text →
      (missing → y =
        .error ((Problem.missingBinaryFunction (binaryFunctionName text)).diagnostic span) (φ s)) →
      Echo late missing φ (.error ((Problem.notBinaryOperator text).diagnostic span) s) y

theorem Echo.bind {p q : EStateM Diagnostic σ α} {f g : α → EStateM Diagnostic σ β} {s : σ}
    (first : Echo late missing φ (p s) (q (φ s)))
    (next : ∀ a s', p s = .ok a s' → Echo late missing φ (f a s') (g a (φ s'))) :
    Echo late missing φ ((p >>= f) s) ((q >>= g) (φ s)) := by
  change Echo late missing φ (EStateM.bind p f s) (EStateM.bind q g (φ s))
  unfold EStateM.bind
  cases run : p s with
  | ok a s' =>
    rw [run] at first
    generalize q (φ s) = y at first
    cases first
    exact next a s' run
  | error d s' =>
    rw [run] at first
    generalize q (φ s) = y at first
    cases first with
    | error => exact .error
    | late gained lacks => exact .late gained fun none => by rw [lacks none]

theorem Echo.ite {c : Prop} [Decidable c] {p p' q q' : EStateM Diagnostic σ α} {s : σ}
    (yes : Echo late missing φ (p s) (q (φ s))) (no : Echo late missing φ (p' s) (q' (φ s))) :
    Echo late missing φ ((if c then p else p') s) ((if c then q else q') (φ s)) := by
  split
  · exact yes
  · exact no

theorem Echo.imp {missing' : Prop} {x y : EStateM.Result Diagnostic σ α}
    (echo : Echo late missing φ x y) (weaker : missing' → missing) : Echo late missing' φ x y := by
  cases echo with
  | ok => exact .ok
  | error => exact .error
  | late gained lacks => exact .late gained fun none => lacks (weaker none)

namespace Resolve

variable {env : Environment} {table : OperatorTable}

/-- With the operators of the table the same comes of the second resolution, as far as the
operators are known without it. -/
abbrev Echoes (env : Environment) (table : OperatorTable) (p q : Resolve α) : Prop :=
  ∀ b, Echo (env.operators.Gains table) (env.LacksGained table) id (p b) (q b)

theorem echoes_refl (p : Resolve α) : Echoes env table p p := by
  intro b
  cases p b with
  | ok a b' => exact .ok
  | error d b' => exact .error

theorem Echoes.bind {p q : Resolve α} {f g : α → Resolve β} (first : Echoes env table p q)
    (next : ∀ a, Echoes env table (f a) (g a)) : Echoes env table (p >>= f) (q >>= g) :=
  fun b => (first b).bind fun a b' _ => next a b'

theorem Echoes.inScope {p q : Resolve α} (part : Echoes env table p q) :
    Echoes env table (inScope p) (inScope q) := by
  intro b
  have inner := part { b with scopes := b.scopes.push }
  unfold Resolve.inScope
  generalize p { b with scopes := b.scopes.push } = x at inner
  generalize q { b with scopes := b.scopes.push } = y at inner
  cases inner with
  | ok => exact .ok
  | error => exact .error
  | late gained lacks => exact .late gained fun none => by rw [lacks none]; rfl

/-- An operator has the same meaning in a larger table, unless it is not in the smaller. -/
theorem echoes_apply (within : env.operators.Within table) (left right : Expr) {operator : Token}
    (kind : operator.kind = .operator) (sign : IsSign operator.text) :
    Echoes env table (apply env left operator right)
      (apply (env.withOperators table) left operator right) := by
  obtain ⟨c, letter, noDigit⟩ := sign
  have symbol : operator.symbol? = some c := by simp [Token.symbol?, kind, letter]
  intro b
  unfold apply
  rw [symbol]
  dsimp only [Option.getD_some]
  cases BuiltIn.ofSymbol? c with
  | some op => exact .ok
  | none =>
    have callee (name : String) : (env.withOperators table).callee? name = env.callee? name := rfl
    dsimp only
    rw [callee]
    cases known : env.operators.infixOp? c with
    | some op =>
      obtain ⟨op', known'⟩ := Option.isSome_iff_exists.mp
        (within.infixOp? c (Option.isSome_of_eq_some known))
      rw [show (env.withOperators table).operators.infixOp? c = some op' from known']
      exact echoes_refl _ b
    | none =>
      cases known' : table.infixOp? c with
      | none =>
        rw [show (env.withOperators table).operators.infixOp? c = none from known']
        exact .error
      | some op' =>
        rw [show (env.withOperators table).operators.infixOp? c = some op' from known']
        have gained : env.operators.Gains table operator.text :=
          ⟨c, letter, known, Option.isSome_of_eq_some known'⟩
        exact .late gained fun lacks => by rw [lacks operator.text ⟨c, letter, noDigit⟩ gained]; rfl

theorem echoes_unaryCallee (within : env.operators.Within table) {c : Char}
    (known : (env.operators.prefixOp? c).isSome = true) (text : String) (span : Span) :
    Echoes env table (unaryCallee env c text span) (unaryCallee (env.withOperators table) c text span) := by
  obtain ⟨op, here⟩ := Option.isSome_iff_exists.mp known
  obtain ⟨op', there⟩ := Option.isSome_iff_exists.mp (within.prefixOp? c known)
  unfold unaryCallee
  rw [here, show (env.withOperators table).operators.prefixOp? c = some op' from there]
  exact echoes_refl _

/-- What the tree means with the operators of the table. -/
def EchoesOn (env : Environment) (table : OperatorTable) (t : SyntaxTree) : Prop :=
  t.PrefixesIn env.operators → Echoes env table (expr env t) (expr (env.withOperators table) t)

theorem echoes_exprs {ts : List SyntaxTree} (each : ∀ t ∈ ts, EchoesOn env table t)
    (known : ∀ t ∈ ts, t.PrefixesIn env.operators) :
    Echoes env table (exprs env ts) (exprs (env.withOperators table) ts) := by
  induction ts with
  | nil => exact echoes_refl _
  | cons t ts ih =>
    obtain ⟨first, others⟩ := List.forall_mem_cons.mp each
    obtain ⟨known, rest⟩ := List.forall_mem_cons.mp known
    exact (first known).bind fun e => (ih others rest).bind fun es => echoes_refl _

theorem echoes_applyAll (within : env.operators.Within table) {operators : List (Token × SyntaxTree)}
    (signs : ∀ o ∈ operators, o.1.kind = .operator ∧ IsSign o.1.text)
    (each : ∀ o ∈ operators, EchoesOn env table o.2)
    (known : ∀ o ∈ operators, o.2.PrefixesIn env.operators) (left : Expr) :
    Echoes env table (applyAll env left operators)
      (applyAll (env.withOperators table) left operators) := by
  induction operators generalizing left with
  | nil => exact echoes_refl _
  | cons o rest ih =>
    obtain ⟨⟨kind, sign⟩, signs⟩ := List.forall_mem_cons.mp signs
    obtain ⟨operand, each⟩ := List.forall_mem_cons.mp each
    obtain ⟨here, known⟩ := List.forall_mem_cons.mp known
    exact (operand here).bind fun right => (echoes_apply within left right kind sign).bind fun whole =>
      ih signs each known whole

theorem echoes_initializer {t : SyntaxTree} (form : t.IsInitializer)
    (each : ∀ v ∈ t.children, EchoesOn env table v) (known : t.PrefixesIn env.operators) :
    Echoes env table (initializer env t) (initializer (env.withOperators table) t) := by
  obtain ⟨kind, span, text, children, operators⟩ := t
  obtain ⟨rfl, rfl, _⟩ := form
  cases known with
  | node _ known _ =>
    unfold initializer
    rw [if_pos rfl, if_pos rfl]
    cases children with
    | nil => exact echoes_refl _
    | cons value _ =>
      exact (each value List.mem_cons_self (known value List.mem_cons_self)).bind fun _ =>
        echoes_refl _

theorem echoes_bindings {initializers : List SyntaxTree} {body : SyntaxTree}
    (forms : ∀ i ∈ initializers, i.IsInitializer)
    (values : ∀ i ∈ initializers, ∀ v ∈ i.children, EchoesOn env table v)
    (last : EchoesOn env table body) (missing : Diagnostic)
    (known : ∀ t ∈ initializers ++ [body], t.PrefixesIn env.operators) :
    Echoes env table (bindings env missing (initializers ++ [body]))
      (bindings (env.withOperators table) missing (initializers ++ [body])) := by
  induction initializers with
  | nil => exact (last (known body List.mem_cons_self)).bind fun _ => echoes_refl _
  | cons first rest ih =>
    obtain ⟨form, forms⟩ := List.forall_mem_cons.mp forms
    obtain ⟨value, values⟩ := List.forall_mem_cons.mp values
    obtain ⟨here, known⟩ := List.forall_mem_cons.mp known
    have others := ih forms values known
    rw [List.cons_append]
    obtain ⟨next, more, same⟩ := List.exists_cons_of_ne_nil (List.append_ne_nil_of_right_ne_nil rest
      (List.cons_ne_nil body []))
    rw [same] at others ⊢
    unfold bindings
    exact (echoes_initializer form value here).bind fun l => (echoes_refl (declare l)).bind fun _ =>
      others.bind fun _ => echoes_refl _

theorem echoes_loop {counter : SyntaxTree} (known : counter.PrefixesIn env.operators)
    (form : counter.IsInitializer) (value : ∀ v ∈ counter.children, EchoesOn env table v)
    {part part' : Local → Resolve Expr} (inside : ∀ l, Echoes env table (part l) (part' l)) :
    Echoes env table
      (initializer env counter >>= fun l => inScope (declare l >>= fun _ => part l))
      (initializer (env.withOperators table) counter >>= fun l =>
        inScope (declare l >>= fun _ => part' l)) :=
  (echoes_initializer form value known).bind fun l =>
    ((echoes_refl (declare l)).bind fun _ => inside l).inScope

/-- What a source can write as an expression means the same with more operators, but for
those of its operators that are not known without them. -/
theorem echoes_expr (within : env.operators.Within table) {t : SyntaxTree} (form : t.IsExpr) :
    EchoesOn env table t := by
  induction form with
  | chain _ signs _ first rest =>
    rintro ⟨_, children, operators⟩
    unfold expr
    exact (first (children _ List.mem_cons_self)).bind fun left =>
      echoes_applyAll within signs rest operators left
  | paren _ inner =>
    rintro ⟨_, children, _⟩
    unfold expr
    exact inner (children _ List.mem_cons_self)
  | constant _ | reference _ =>
    intro _
    unfold expr
    exact echoes_refl _
  | @call _ text _ _ each =>
    rintro ⟨_, children, _⟩
    unfold expr
    have same : (env.withOperators table).callee? text = env.callee? text := rfl
    dsimp only
    rw [same]
    cases env.callee? text with
    | none => exact echoes_refl _
    | some callee => exact (echoes_exprs each children).bind fun _ => echoes_refl _
  | prefixed _ _ operand =>
    rintro ⟨sign, children, _⟩
    obtain ⟨c, first, known⟩ := sign rfl
    unfold expr
    simp only [SyntaxTree.symbol?, first, Option.getD_some]
    exact (echoes_unaryCallee within known _ _).bind fun _ =>
      (operand (children _ List.mem_cons_self)).bind fun _ => echoes_refl _
  | conditional _ _ _ first second third =>
    rintro ⟨_, children, _⟩
    unfold expr
    refine (first (children _ (by simp))).bind fun _ => (second (children _ (by simp))).bind fun _ =>
      (third (children _ (by simp))).bind fun _ => echoes_refl _
  | loop _ _ _ value condition body =>
    rintro ⟨_, children, _⟩
    unfold expr
    refine echoes_loop (children _ List.mem_cons_self) ⟨rfl, rfl, Nat.le_refl 1⟩
      (by simpa using value) fun l => ?_
    exact (condition (children _ (by simp))).bind fun _ => (body (children _ (by simp))).bind fun _ =>
      echoes_refl _
  | loopStep _ _ _ _ value condition step body =>
    rintro ⟨_, children, _⟩
    unfold expr
    refine echoes_loop (children _ List.mem_cons_self) ⟨rfl, rfl, Nat.le_refl 1⟩
      (by simpa using value) fun l => ?_
    exact (condition (children _ (by simp))).bind fun _ => (step (children _ (by simp))).bind fun _ =>
      (body (children _ (by simp))).bind fun _ => echoes_refl _
  | varIn forms _ _ values body =>
    rintro ⟨_, children, _⟩
    unfold expr
    exact (echoes_bindings forms values body _ children).inScope.bind fun _ => echoes_refl _

end Resolve

end OpenExpr
