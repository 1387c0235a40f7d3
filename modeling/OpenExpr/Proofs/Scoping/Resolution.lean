import OpenExpr.Proofs.Scoping.Form
import OpenExpr.Proofs.Scoping.Uses

namespace OpenExpr

/-- The scopes are the same but for names in the innermost one that no source can write. -/
structure Scopes.Keeps (s s' : Scopes Binding) : Prop where
  enclosing : s'.enclosing = s.enclosing
  innermost : ∀ name, IsPlain name → s'.innermost[name]? = s.innermost[name]?

/-- Of the names that can be written those of the list are bound, each to the first of
that name. -/
def Scopes.Sees (s : Scopes Binding) (scope : List Binding) : Prop :=
  ∀ name, IsPlain name → s.find? name = scope.find? fun b => b.name == name

namespace Scopes

variable {s s' s'' : Scopes Binding} {scope : List Binding}

theorem sees_empty : Sees {} [] :=
  fun _ _ => rfl

theorem Keeps.refl (s : Scopes Binding) : s.Keeps s :=
  ⟨rfl, fun _ _ => rfl⟩

theorem Keeps.trans (first : s.Keeps s') (second : s'.Keeps s'') : s.Keeps s'' where
  enclosing := second.enclosing.trans first.enclosing
  innermost name plain := (second.innermost name plain).trans (first.innermost name plain)

theorem keeps_insert {name : String} (reserved : ¬ IsPlain name) (b : Binding) :
    s.Keeps (s.insert name b) where
  enclosing := rfl
  innermost key plain := by
    have other : name ≠ key := fun same => reserved (same ▸ plain)
    simp [insert, Std.ExtTreeMap.getElem?_insert, other]

theorem Sees.of_keeps (sees : s.Sees scope) (keeps : s.Keeps s') : s'.Sees scope := by
  intro name plain
  rw [← sees name plain]
  unfold find?
  rw [keeps.enclosing, List.findSome?_cons, List.findSome?_cons, keeps.innermost name plain]

theorem Sees.push (sees : s.Sees scope) : s.push.Sees scope := by
  intro name plain
  rw [find?_push, sees name plain]

theorem Sees.insert (sees : s.Sees scope) (b : Binding) :
    (s.insert b.name b).Sees (b :: scope) := by
  intro name plain
  rw [find?_insert, List.find?_cons]
  by_cases same : b.name = name
  · simp [same]
  · rw [if_neg same, beq_eq_false_iff_ne.mpr same, sees name plain]

/-- What happens in a scope inside is over when that scope is closed. -/
theorem pop_eq (same : s'.enclosing = s.push.enclosing) : s'.pop = s := by
  unfold pop
  rw [same]
  rfl

end Scopes

namespace Resolve

variable {α β : Type} {scope : List Binding} {known known' : Prop} {P : α → Prop} {Q : β → Prop}

/-- The part succeeds exactly if what it uses is known, what it then gives satisfies
`P`, and either way the scopes are related by `K` to those before. -/
def Decides (K : Scopes Binding → Scopes Binding → Prop) (known : Prop) (P : α → Prop) (b : Body) :
    EStateM.Result Diagnostic Body α → Prop
  | .ok a b' => (known ∧ P a) ∧ K b.scopes b'.scopes
  | .error _ b' => ¬ known ∧ K b.scopes b'.scopes

theorem Decides.imp {K K' : Scopes Binding → Scopes Binding → Prop} {b b' : Body}
    {result : EStateM.Result Diagnostic Body α} (h : Decides K known P b result)
    (weaker : ∀ s, K b.scopes s → K' b'.scopes s) : Decides K' known P b' result := by
  cases result with
  | ok a b'' => exact ⟨h.1, weaker _ h.2⟩
  | error d b'' => exact ⟨h.1, weaker _ h.2⟩

theorem Decides.bind {K : Scopes Binding → Scopes Binding → Prop} {p : Resolve α}
    {f : α → Resolve β} {b : Body} (first : Decides Scopes.Keeps known P b (p b))
    (next : ∀ a, P a → ∀ b', b.scopes.Keeps b'.scopes → Decides K known' Q b' (f a b'))
    (absorb : ∀ {s s' s''}, Scopes.Keeps s s' → K s' s'' → K s s'')
    (weaken : ∀ {s s'}, Scopes.Keeps s s' → K s s') :
    Decides K (known ∧ known') Q b ((p >>= f) b) := by
  change Decides K _ Q b (EStateM.bind p f b)
  unfold EStateM.bind
  cases run : p b with
  | error d b' =>
    rw [run] at first
    exact ⟨fun both => first.1 both.1, weaken first.2⟩
  | ok a b' =>
    rw [run] at first
    obtain ⟨⟨isKnown, good⟩, keeps⟩ := first
    have second := next a good b' keeps
    dsimp only
    cases run' : f a b' with
    | error d b'' =>
      rw [run'] at second
      exact ⟨fun both => second.1 both.2, absorb keeps second.2⟩
    | ok c b'' =>
      rw [run'] at second
      exact ⟨⟨⟨isKnown, second.1.1⟩, second.1.2⟩, absorb keeps second.2⟩

/-- Where `scope` is seen, the part is decided and leaves the scopes as they were. -/
def Resolves (scope : List Binding) (known : Prop) (P : α → Prop) (p : Resolve α) : Prop :=
  ∀ b : Body, b.scopes.Sees scope → Decides Scopes.Keeps known P b (p b)

/-- Where `scope` is seen, the part is decided, but may bind names in the innermost scope. -/
def Binds (scope : List Binding) (known : Prop) (P : α → Prop) (p : Resolve α) : Prop :=
  ∀ b : Body, b.scopes.Sees scope →
    Decides (fun s s' => s'.enclosing = s.enclosing) known P b (p b)

theorem Resolves.bind {p : Resolve α} {f : α → Resolve β} (h : Resolves scope known P p)
    (next : ∀ a, P a → Resolves scope known' Q (f a)) :
    Resolves scope (known ∧ known') Q (p >>= f) :=
  fun b sees => (h b sees).bind
    (fun a good b' keeps => next a good b' (sees.of_keeps keeps)) Scopes.Keeps.trans id

theorem Resolves.bindBinds {p : Resolve α} {f : α → Resolve β} (h : Resolves scope known P p)
    (next : ∀ a, P a → Binds scope known' Q (f a)) :
    Binds scope (known ∧ known') Q (p >>= f) :=
  fun b sees => (h b sees).bind
    (fun a good b' keeps => next a good b' (sees.of_keeps keeps))
    (fun keeps same => same.trans keeps.enclosing) Scopes.Keeps.enclosing

theorem Resolves.congr {p : Resolve α} (h : Resolves scope known P p) (same : known ↔ known') :
    Resolves scope known' P p := by
  rwa [← propext same]

theorem Binds.congr {p : Resolve α} (h : Binds scope known P p) (same : known ↔ known') :
    Binds scope known' P p := by
  rwa [← propext same]

theorem Resolves.imp {P' : α → Prop} {p : Resolve α} (h : Resolves scope known P p)
    (weaker : ∀ a, P a → P' a) : Resolves scope known P' p := by
  intro b sees
  have first := h b sees
  cases run : p b with
  | ok a b' =>
    rw [run] at first
    exact ⟨⟨first.1.1, weaker a first.1.2⟩, first.2⟩
  | error d b' =>
    rw [run] at first
    exact first

theorem resolves_pure {a : α} (good : P a) : Resolves scope True P (pure a) :=
  fun b _ => ⟨⟨trivial, good⟩, .refl b.scopes⟩

theorem resolves_throw {d : Diagnostic} (unknown : ¬ known) :
    Resolves scope known P (throw d : Resolve α) :=
  fun b _ => ⟨unknown, .refl b.scopes⟩

theorem Resolves.map {p : Resolve α} {f : α → β} (h : Resolves scope known P p)
    (good : ∀ a, P a → Q (f a)) : Resolves scope known Q (p >>= fun a => pure (f a)) :=
  (h.bind fun a isGood => resolves_pure (good a isGood)).congr (iff_of_eq (and_true known))

/-- A declaration is seen by what follows it in its scope. -/
theorem binds_declare {l : Local} {p : Resolve α}
    (next : Binds (.declared l.declared :: scope) known P p) :
    Binds scope known P (declare l >>= fun _ => p) := by
  intro b sees
  exact next { b with
    scopes := b.scopes.insert l.name (.declared l.declared)
    locals := b.locals ++ [l] } (sees.insert (.declared l.declared))

theorem Binds.inScope {p : Resolve α} (h : Binds scope known P p) :
    Resolves scope known P (inScope p) := by
  intro b sees
  have inner := h { b with scopes := b.scopes.push } sees.push
  unfold Resolve.inScope
  cases run : p { b with scopes := b.scopes.push } with
  | ok a b' =>
    rw [run] at inner
    refine ⟨inner.1, ?_⟩
    rw [Scopes.pop_eq inner.2]
    exact .refl b.scopes
  | error d b' =>
    rw [run] at inner
    refine ⟨inner.1, ?_⟩
    rw [Scopes.pop_eq inner.2]
    exact .refl b.scopes

theorem resolves_declareResult (span : Span) : Resolves scope True
    (fun l => l.errors = [] ∧ l.references = []) (declareResult span) := by
  intro b _
  have reserved : ¬ IsPlain ("$ifresult$" ++ toString b.results) := by
    simp [IsPlain, String.toList_append]
  exact ⟨⟨trivial, rfl, rfl⟩, Scopes.keeps_insert reserved _⟩

variable (env : Environment)

theorem get_bind (f : Body → Resolve α) (b : Body) : (get >>= f) b = f b b := rfl

theorem resolves_reference {name : String} (plain : IsPlain name) (span : Span) :
    Resolves scope (AllKnown env [.variable name span scope])
      (fun e => e.Answers [.variable name span scope]) (reference name span) := by
  intro b sees
  have bound := sees name plain
  unfold reference
  rw [get_bind, bound]
  cases found : scope.find? fun b => b.name == name with
  | none =>
    have unbound : ∀ binding ∈ scope, ¬ binding.name = name := by simpa using found
    refine ⟨fun known => ?_, .refl b.scopes⟩
    obtain ⟨binding, member, same⟩ := known _ List.mem_cons_self
    exact unbound binding member same
  | some binding =>
    have same : binding.name = name := by simpa using List.find?_some found
    refine ⟨⟨?_, rfl, ?_⟩, .refl b.scopes⟩
    · simpa [Use.IsKnown] using ⟨binding, List.mem_of_find?_eq_some found, same⟩
    · simp [Expr.references, Use.target?, found]

theorem resolves_apply {left right : Expr} {us vs : List Use} (first : left.Answers us)
    (second : right.Answers vs) {operator : Token} (kind : operator.kind = .operator)
    (sign : IsSign operator.text) :
    Resolves scope (AllKnown env [.infixOp operator.text]) (fun e => e.Answers (us ++ vs))
      (apply env left operator right) := by
  obtain ⟨c, text, _⟩ := sign
  have symbol : operator.symbol? = some c := by simp [Token.symbol?, kind, text]
  have uses : AllKnown env [.infixOp operator.text] ↔ (BuiltIn.ofSymbol? c).isSome = true ∨
      (env.operators.infixOp? c).isSome = true ∧ env.Offers (binaryFunctionName operator.text) := by
    simp [Use.IsKnown, text]
  have sound : left.errors ++ right.errors = [] := by rw [first.sound, second.sound]; rfl
  have references : left.references ++ right.references = (us ++ vs).filterMap Use.target? := by
    rw [first.references, second.references, List.filterMap_append]
  unfold apply
  rw [symbol]
  dsimp only [Option.getD_some]
  cases builtIn : BuiltIn.ofSymbol? c with
  | some op => exact (resolves_pure ⟨sound, references⟩).congr (by simp [uses, builtIn])
  | none =>
    dsimp only
    cases known : env.operators.infixOp? c with
    | none => exact resolves_throw (by simp [uses, builtIn, known])
    | some op =>
      dsimp only
      cases callee : env.callee? (binaryFunctionName operator.text) with
      | none => exact resolves_throw (by simp [uses, builtIn, known, Environment.offers_iff, callee])
      | some p =>
        refine (resolves_pure ⟨?_, ?_⟩).congr
          (by simp [uses, known, Environment.offers_iff, callee])
        · simpa [Expr.errors, Expr.errorsAll] using sound
        · simpa [Expr.references, Expr.referencesAll] using references

theorem resolves_unaryCallee {text : String} {c : Char} (sign : text.toList = [c]) (span : Span) :
    Resolves scope (AllKnown env [.prefixOp text]) (fun _ => True) (unaryCallee env c text span) := by
  have uses : AllKnown env [.prefixOp text] ↔
      (env.operators.prefixOp? c).isSome = true ∧ env.Offers (unaryFunctionName text) := by
    simp [Use.IsKnown, sign]
  unfold unaryCallee
  cases known : env.operators.prefixOp? c with
  | none => exact resolves_throw (by simp [uses, known])
  | some op =>
    dsimp only
    cases callee : env.callee? (unaryFunctionName text) with
    | none => exact resolves_throw (by simp [uses, Environment.offers_iff, callee])
    | some p =>
      exact (resolves_pure trivial).congr (by simp [uses, known, Environment.offers_iff, callee])

/-- The tree binds no name by itself, and in every scope it means what it uses. -/
structure IsScoped (t : SyntaxTree) : Prop where
  free : t.kind ≠ .initializer
  resolves : ∀ scope, Resolves scope (AllKnown env (t.uses scope))
    (fun e => e.Answers (t.uses scope)) (expr env t)

variable {env}

theorem IsScoped.usesAll_cons {t : SyntaxTree} (lexical : IsScoped env t) (ts : List SyntaxTree)
    (scope : List Binding) : SyntaxTree.usesAll scope (t :: ts) =
      t.uses scope ++ SyntaxTree.usesAll scope ts := by
  simp [SyntaxTree.usesAll, SyntaxTree.scopeAfter, lexical.free]

theorem resolves_exprs {ts : List SyntaxTree} (each : ∀ t ∈ ts, IsScoped env t) (scope : List Binding) :
    Resolves scope (AllKnown env (SyntaxTree.usesAll scope ts))
      (fun es => Expr.AllAnswer es (SyntaxTree.usesAll scope ts)) (exprs env ts) := by
  induction ts with
  | nil => exact (resolves_pure ⟨rfl, rfl⟩).congr (by simp [SyntaxTree.usesAll])
  | cons t ts ih =>
    have first := each t List.mem_cons_self
    rw [first.usesAll_cons]
    refine ((first.resolves scope).bind fun e answers =>
      (ih fun t member => each t (List.mem_cons_of_mem _ member)).map fun es others => ?_).congr
        allKnown_append.symm
    exact ⟨by simp [Expr.errorsAll, answers.sound, others.sound],
      by simp [Expr.referencesAll, answers.references, others.references, List.filterMap_append]⟩

theorem resolves_applyAll {operators : List (Token × SyntaxTree)}
    (signs : ∀ o ∈ operators, o.1.kind = .operator ∧ IsSign o.1.text)
    (each : ∀ o ∈ operators, IsScoped env o.2) (scope : List Binding) {left : Expr} {us : List Use}
    (answers : left.Answers us) :
    Resolves scope (AllKnown env (SyntaxTree.usesOperators scope operators))
      (fun e => e.Answers (us ++ SyntaxTree.usesOperators scope operators))
      (applyAll env left operators) := by
  induction operators generalizing left us with
  | nil =>
    simp only [SyntaxTree.usesOperators, List.append_nil]
    exact (resolves_pure answers).congr (by simp)
  | cons o rest ih =>
    obtain ⟨operator, operand⟩ := o
    have sign := signs _ List.mem_cons_self
    have lexical := each _ List.mem_cons_self
    have whole := (lexical.resolves scope).bind fun right second =>
      (resolves_apply env answers second sign.1 sign.2).bind fun whole both =>
      ih (fun o member => signs o (List.mem_cons_of_mem _ member))
        (fun o member => each o (List.mem_cons_of_mem _ member)) both
    refine (whole.congr ?_).imp fun e answers => ⟨answers.sound, ?_⟩
    · simp [SyntaxTree.usesOperators, and_left_comm]
    · simp [SyntaxTree.usesOperators, answers.references, List.filterMap_cons, Use.target?]

theorem uses_initializer {t : SyntaxTree} (form : t.IsInitializer) (scope : List Binding) :
    t.uses scope = SyntaxTree.usesAll scope t.children := by
  obtain ⟨kind, span, text, children, operators⟩ := t
  obtain ⟨rfl, rfl, _⟩ := form
  simp [SyntaxTree.uses, SyntaxTree.Kind.uses, SyntaxTree.usesOperators]

theorem resolves_initializer {t : SyntaxTree} (form : t.IsInitializer)
    (value : ∀ v ∈ t.children, IsScoped env v) (scope : List Binding) :
    Resolves scope (AllKnown env (t.uses scope))
      (fun l => l.Answers (t.uses scope) ∧
        l.declared = { name := t.text, isGenerated := false, span := t.span })
      (initializer env t) := by
  rw [uses_initializer form]
  obtain ⟨kind, span, text, children, operators⟩ := t
  obtain ⟨rfl, rfl, single⟩ := form
  dsimp only at value ⊢
  unfold initializer
  rw [if_pos rfl]
  cases children with
  | nil => exact (resolves_pure ⟨⟨rfl, rfl⟩, rfl⟩).congr (by simp [SyntaxTree.usesAll])
  | cons v rest =>
    obtain rfl : rest = [] := by simpa using single
    have lexical := value v List.mem_cons_self
    rw [lexical.usesAll_cons, SyntaxTree.usesAll, List.append_nil]
    exact (lexical.resolves scope).map fun e answers => ⟨⟨answers.sound, answers.references⟩, rfl⟩

theorem scopeAfter_initializer {t : SyntaxTree} (form : t.IsInitializer) (scope : List Binding) :
    t.scopeAfter scope =
      .declared { name := t.text, isGenerated := false, span := t.span } :: scope := by
  simp [SyntaxTree.scopeAfter, form.kind]

theorem Resolves.binds {p : Resolve α} (h : Resolves scope known P p) : Binds scope known P p :=
  fun b sees => (h b sees).imp fun _ => Scopes.Keeps.enclosing

theorem Binds.map {p : Resolve α} {f : α → β} (h : Binds scope known P p)
    (good : ∀ a, P a → Q (f a)) : Binds scope known Q (p >>= fun a => pure (f a)) := by
  intro b sees
  have first := h b sees
  change Decides _ known Q b (EStateM.bind p (fun a => pure (f a)) b)
  unfold EStateM.bind
  cases run : p b with
  | ok a b' =>
    rw [run] at first
    exact ⟨⟨first.1.1, good a first.1.2⟩, first.2⟩
  | error d b' =>
    rw [run] at first
    exact first

/-- Each variable is seen by those after it and by the body. -/
theorem binds_bindings {initializers : List SyntaxTree} {body : SyntaxTree}
    (forms : ∀ i ∈ initializers, i.IsInitializer)
    (values : ∀ i ∈ initializers, ∀ v ∈ i.children, IsScoped env v) (last : IsScoped env body)
    (missing : Diagnostic) (scope : List Binding) :
    Binds scope (AllKnown env (SyntaxTree.usesAll scope (initializers ++ [body])))
      (fun parts => Local.AllAnswer parts (SyntaxTree.usesAll scope (initializers ++ [body])))
      (bindings env missing (initializers ++ [body])) := by
  induction initializers generalizing scope with
  | nil =>
    rw [List.nil_append, last.usesAll_cons, SyntaxTree.usesAll, List.append_nil]
    exact ((last.resolves scope).map fun e answers =>
      ⟨by simpa [Local.errorsAll] using answers.sound,
        by simpa [Local.referencesAll] using answers.references⟩).binds
  | cons first rest ih =>
    have form := forms first List.mem_cons_self
    have value := values first List.mem_cons_self
    have others := ih (fun i member => forms i (List.mem_cons_of_mem _ member))
      (fun i member => values i (List.mem_cons_of_mem _ member)) (first.scopeAfter scope)
    rw [scopeAfter_initializer form] at others
    rw [List.cons_append, SyntaxTree.usesAll, scopeAfter_initializer form]
    obtain ⟨next, more, same⟩ := List.exists_cons_of_ne_nil (List.append_ne_nil_of_right_ne_nil rest
      (List.cons_ne_nil body []))
    rw [same] at others ⊢
    unfold bindings
    refine ((resolves_initializer form value scope).bindBinds fun l good => ?_).congr
      allKnown_append.symm
    obtain ⟨answers, declared⟩ := good
    rw [← declared] at others ⊢
    exact binds_declare (others.map fun parts rest =>
      ⟨by simpa [Local.errorsAll, answers.sound] using rest.sound,
        by simpa [Local.referencesAll, answers.references] using rest.references⟩)

/-! Constructs whose parts are resolved by the rules of their scopes. -/

theorem uses_node (kind : SyntaxTree.Kind) (span : Span) (text : String) (children : List SyntaxTree)
    (scope : List Binding) : SyntaxTree.uses scope { kind, span, text, children } =
      kind.uses text span scope ++ SyntaxTree.usesAll scope children := by
  simp [SyntaxTree.uses, SyntaxTree.usesOperators]

variable {span : Span} {text : String}

theorem isScoped_chain {operand : SyntaxTree} {operators : List (Token × SyntaxTree)}
    (first : IsScoped env operand) (signs : ∀ o ∈ operators, o.1.kind = .operator ∧ IsSign o.1.text)
    (rest : ∀ o ∈ operators, IsScoped env o.2) :
    IsScoped env { kind := .expression, span, text, children := [operand], operators } where
  free := by simp
  resolves scope := by
    have uses : SyntaxTree.uses scope
        { kind := .expression, span, text, children := [operand], operators } =
        operand.uses scope ++ SyntaxTree.usesOperators scope operators := by
      simp [SyntaxTree.uses, SyntaxTree.Kind.uses, SyntaxTree.usesAll]
    rw [uses]
    unfold expr
    exact ((first.resolves scope).bind fun left answers =>
      resolves_applyAll signs rest scope answers).congr allKnown_append.symm

theorem isScoped_paren {inner : SyntaxTree} (lexical : IsScoped env inner) :
    IsScoped env { kind := .paren, span, text, children := [inner] } where
  free := by simp
  resolves scope := by
    rw [uses_node, lexical.usesAll_cons, SyntaxTree.usesAll]
    unfold expr
    simpa [SyntaxTree.Kind.uses] using lexical.resolves scope

theorem isScoped_constant (number : (Decimal.float? text).isSome = true) :
    IsScoped env { kind := .constant, span, text } where
  free := by simp
  resolves scope := by
    obtain ⟨value, known⟩ := Option.isSome_iff_exists.mp number
    rw [uses_node]
    unfold expr
    simp only [known]
    exact (resolves_pure ⟨rfl, rfl⟩).congr (by simp [SyntaxTree.Kind.uses, SyntaxTree.usesAll])

theorem isScoped_reference (plain : IsPlain text) :
    IsScoped env { kind := .reference, span, text } where
  free := by simp
  resolves scope := by
    rw [uses_node]
    unfold expr
    exact resolves_reference env plain span

theorem isScoped_call {arguments : List SyntaxTree} (each : ∀ t ∈ arguments, IsScoped env t) :
    IsScoped env { kind := .functionCall, span, text, children := arguments } where
  free := by simp
  resolves scope := by
    have parts := resolves_exprs each scope
    rw [uses_node]
    unfold expr
    dsimp only
    cases callee : env.callee? text with
    | none =>
      exact resolves_throw
        (by simp [SyntaxTree.Kind.uses, Use.IsKnown, Environment.offers_iff, callee])
    | some p =>
      refine (parts.map fun es answers => ⟨answers.sound, ?_⟩).congr ?_
      · simp [SyntaxTree.Kind.uses, Use.IsKnown, Environment.offers_iff, callee]
      · simpa [Expr.references, SyntaxTree.Kind.uses, Use.target?, List.filterMap_cons] using
          answers.references

theorem isScoped_prefixed {operand : SyntaxTree} (sign : IsSign text) (lexical : IsScoped env operand) :
    IsScoped env { kind := .unaryOperator, span, text, children := [operand] } where
  free := by simp
  resolves scope := by
    obtain ⟨c, letter, _⟩ := sign
    rw [uses_node, lexical.usesAll_cons, SyntaxTree.usesAll, List.append_nil]
    unfold expr
    simp only [SyntaxTree.symbol?, letter, List.head?_cons, Option.getD_some]
    refine ((resolves_unaryCallee env letter span).bind fun p _ =>
      (lexical.resolves scope).map fun e answers => ⟨?_, ?_⟩).congr allKnown_append.symm
    · simpa [Expr.errors, Expr.errorsAll] using answers.sound
    · simpa [Expr.references, Expr.referencesAll, SyntaxTree.Kind.uses, Use.target?,
        List.filterMap_cons] using answers.references

theorem isScoped_conditional {first second third : SyntaxTree} (condition : IsScoped env first)
    (yes : IsScoped env second) (no : IsScoped env third) :
    IsScoped env { kind := .conditional, span, text, children := [first, second, third] } where
  free := by simp
  resolves scope := by
    rw [uses_node, condition.usesAll_cons, yes.usesAll_cons, no.usesAll_cons, SyntaxTree.usesAll]
    unfold expr
    refine ((condition.resolves scope).bind fun c first => (yes.resolves scope).bind
      fun t second => (no.resolves scope).bind fun e third => (resolves_declareResult span).map
      fun l slot => ⟨?_, ?_⟩).congr ?_
    · simp [SyntaxTree.Kind.uses]
    · simp [Expr.errors, first.sound, second.sound, third.sound]
    · simp [Expr.references, first.references, second.references, third.references, slot.2,
        SyntaxTree.Kind.uses, List.filterMap_append]

/-- The start value of a loop does not see the counter, all else does. -/
theorem usesAll_counter {t : SyntaxTree} (form : t.IsInitializer) (ts : List SyntaxTree)
    (scope : List Binding) : SyntaxTree.usesAll scope (t :: ts) = t.uses scope ++
      SyntaxTree.usesAll
        (.declared { name := t.text, isGenerated := false, span := t.span } :: scope) ts := by
  rw [SyntaxTree.usesAll, scopeAfter_initializer form]

theorem resolves_loop {counter : SyntaxTree} (form : counter.IsInitializer)
    (value : ∀ v ∈ counter.children, IsScoped env v) {us : List Use} {part : Local → Resolve Expr}
    (inside : ∀ l, l.Answers (counter.uses scope) → Resolves
      (.declared { name := counter.text, isGenerated := false, span := counter.span } :: scope)
      (AllKnown env us) (fun e => e.Answers (counter.uses scope ++ us)) (part l)) :
    Resolves scope (AllKnown env (counter.uses scope ++ us))
      (fun e => e.Answers (counter.uses scope ++ us))
      (initializer env counter >>= fun l => inScope (declare l >>= fun _ => part l)) := by
  refine ((resolves_initializer form value scope).bind fun l good => ?_).congr allKnown_append.symm
  obtain ⟨answers, declared⟩ := good
  have inner := inside l answers
  rw [← declared] at inner
  exact (binds_declare inner.binds).inScope

theorem isScoped_loop {counter second last : SyntaxTree} (form : counter.IsInitializer)
    (value : ∀ v ∈ counter.children, IsScoped env v) (condition : IsScoped env second)
    (body : IsScoped env last) :
    IsScoped env { kind := .forLoop, span, text, children := [counter, second, last] } where
  free := by simp
  resolves scope := by
    rw [uses_node, usesAll_counter form, condition.usesAll_cons, body.usesAll_cons,
      SyntaxTree.usesAll]
    unfold expr
    refine resolves_loop form value fun l start => ?_
    refine ((condition.resolves _).bind fun c second => (body.resolves _).map fun b last =>
      ⟨?_, ?_⟩).congr (by simp)
    · simp [Expr.errors, start.sound, second.sound, last.sound]
    · simp [Expr.references, start.references, second.references, last.references,
        List.filterMap_append]

theorem isScoped_loopStep {counter second third last : SyntaxTree} (form : counter.IsInitializer)
    (value : ∀ v ∈ counter.children, IsScoped env v) (condition : IsScoped env second)
    (step : IsScoped env third) (body : IsScoped env last) :
    IsScoped env { kind := .forLoop, span, text, children := [counter, second, third, last] } where
  free := by simp
  resolves scope := by
    rw [uses_node, usesAll_counter form, condition.usesAll_cons, step.usesAll_cons,
      body.usesAll_cons, SyntaxTree.usesAll]
    unfold expr
    refine resolves_loop form value fun l start => ?_
    refine ((condition.resolves _).bind fun c second => (step.resolves _).bind fun s third =>
      (body.resolves _).map fun b last => ⟨?_, ?_⟩).congr (by simp)
    · simp [Expr.errors, start.sound, second.sound, third.sound, last.sound]
    · simp [Expr.references, start.references, second.references, third.references,
        last.references, List.filterMap_append]

theorem isScoped_varIn {initializers : List SyntaxTree} {body : SyntaxTree}
    (forms : ∀ i ∈ initializers, i.IsInitializer)
    (values : ∀ i ∈ initializers, ∀ v ∈ i.children, IsScoped env v) (last : IsScoped env body) :
    IsScoped env { kind := .varIn, span, text, children := initializers ++ [body] } where
  free := by simp
  resolves scope := by
    rw [uses_node]
    unfold expr
    exact (binds_bindings forms values last _ scope).inScope.map fun parts answers =>
      ⟨answers.sound, answers.references⟩

/-- What a source can write as an expression is resolved by the rules of its scopes. -/
theorem isScoped {t : SyntaxTree} (form : t.IsExpr) : IsScoped env t := by
  induction form with
  | chain _ signs _ first rest => exact isScoped_chain first signs rest
  | paren _ inner => exact isScoped_paren inner
  | constant number => exact isScoped_constant number
  | reference plain => exact isScoped_reference plain
  | call _ each => exact isScoped_call each
  | prefixed sign _ operand => exact isScoped_prefixed sign operand
  | conditional _ _ _ first second third => exact isScoped_conditional first second third
  | loop _ _ _ value condition body =>
    exact isScoped_loop ⟨rfl, rfl, Nat.le_refl 1⟩ (by simpa using value) condition body
  | loopStep _ _ _ _ value condition step body =>
    exact isScoped_loopStep ⟨rfl, rfl, Nat.le_refl 1⟩ (by simpa using value) condition step body
  | varIn forms _ _ values body => exact isScoped_varIn forms values body

end Resolve

end OpenExpr
