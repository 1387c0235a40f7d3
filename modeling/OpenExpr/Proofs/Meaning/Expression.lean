import OpenExpr.Proofs.Growth.Prefixes
import OpenExpr.Proofs.Meaning.Calls

namespace OpenExpr

/-- The diagnostic blames neither the form of a tree nor a prefix operator for being
unknown. What remains is what the tree means. -/
structure Diagnostic.IsOfMeaning (d : Diagnostic) : Prop where
  wellFormed : d.code ≠ .syntaxError
  known : d.code ≠ .invalidUnaryOp

theorem Problem.isOfMeaning {p : Problem} {span : Span} (wellFormed : (p.code == .syntaxError) = false)
    (known : (p.code == .invalidUnaryOp) = false) : (p.diagnostic span).IsOfMeaning :=
  ⟨ne_of_beq_false wellFormed, ne_of_beq_false known⟩

variable {σ α β : Type} {P : α → Prop} {Q : β → Prop}

/-- What a resolution gives satisfies `P`. If it gives nothing, that is because of what
the tree means. -/
def HasMeaning (P : α → Prop) : EStateM.Result Diagnostic σ α → Prop
  | .ok a _ => P a
  | .error d _ => d.IsOfMeaning

/-- So it is wherever the resolution starts. -/
def Meets (P : α → Prop) (p : EStateM Diagnostic σ α) : Prop :=
  ∀ s, HasMeaning P (p s)

theorem HasMeaning.bind {p : EStateM Diagnostic σ α} {f : α → EStateM Diagnostic σ β} {s : σ}
    (first : HasMeaning P (p s)) (next : ∀ a s', p s = .ok a s' → P a → HasMeaning Q (f a s')) :
    HasMeaning Q ((p >>= f) s) := by
  change HasMeaning Q (EStateM.bind p f s)
  unfold EStateM.bind
  cases run : p s with
  | ok a s' =>
    rw [run] at first
    exact next a s' run first
  | error d s' =>
    rw [run] at first
    exact first

theorem Meets.bind {p : EStateM Diagnostic σ α} {f : α → EStateM Diagnostic σ β} (h : Meets P p)
    (next : ∀ a, P a → Meets Q (f a)) : Meets Q (p >>= f) :=
  fun s => (h s).bind fun a s' _ good => next a good s'

theorem Meets.imp {P' : α → Prop} {p : EStateM Diagnostic σ α} (h : Meets P p)
    (weaker : ∀ a, P a → P' a) : Meets P' p := by
  intro s
  have outcome := h s
  cases run : p s with
  | ok a s' =>
    rw [run] at outcome
    exact weaker a outcome
  | error d s' =>
    rw [run] at outcome
    exact outcome

theorem meets_pure {a : α} (good : P a) : Meets P (pure a : EStateM Diagnostic σ α) :=
  fun _ => good

theorem meets_throw {d : Diagnostic} (meaning : d.IsOfMeaning) :
    Meets P (throw d : EStateM Diagnostic σ α) :=
  fun _ => meaning

namespace Environment

/-- The call goes to the function that the environment has under the name, with the
arguments that are written. -/
def Reaches (env : Environment) (site : CallSite) (call : Prototype × Nat) : Prop :=
  env.callee? site.functionName = some call.1 ∧ call.2 = site.arguments

/-- The calls go where they are written to go, one by one. -/
def Answers (env : Environment) (sites : List CallSite) (calls : List (Prototype × Nat)) : Prop :=
  List.Forall₂ env.Reaches sites calls

variable {env : Environment} {sites sites' : List CallSite} {calls calls' : List (Prototype × Nat)}

theorem Answers.append (first : env.Answers sites calls) (second : env.Answers sites' calls') :
    env.Answers (sites ++ sites') (calls ++ calls') :=
  List.rel_append first second

theorem Answers.one {site : CallSite} {callee : Prototype} {n : Nat}
    (known : env.callee? site.functionName = some callee) (same : n = site.arguments) :
    env.Answers [site] [(callee, n)] :=
  .cons ⟨known, same⟩ .nil

end Environment

namespace Resolve

open SyntaxTree

variable {env : Environment}

theorem meets_inScope {p : Resolve α} (h : Meets P p) : Meets P (inScope p) := by
  intro b
  have inner := h { b with scopes := b.scopes.push }
  unfold inScope
  cases run : p { b with scopes := b.scopes.push } <;> rw [run] at inner <;> exact inner

theorem meets_declare (l : Local) : Meets (fun _ => True) (declare l) :=
  fun _ => trivial

theorem meets_declareResult (span : Span) : Meets (fun l => l.calls = []) (declareResult span) :=
  fun _ => rfl

theorem meets_reference (name : String) (span : Span) :
    Meets (fun e => e.calls = []) (reference name span) := by
  intro b
  unfold reference
  rw [get_bind]
  cases b.scopes.find? name with
  | some binding => exact rfl
  | none => exact Problem.isOfMeaning rfl rfl

/-- An operator calls the function behind it, unless it is built in. -/
theorem meets_apply (left right : Expr) {operator : Token} (kind : operator.kind = .operator)
    (sign : IsSign operator.text) :
    Meets (fun e => ∃ calls, e.calls = left.calls ++ right.calls ++ calls ∧
      env.Answers (operatorCalls operator) calls) (apply env left operator right) := by
  obtain ⟨c, text, _⟩ := sign
  have symbol : operator.symbol? = some c := by simp [Token.symbol?, kind, text]
  unfold apply operatorCalls
  rw [symbol, Option.bind_some]
  dsimp only [Option.getD_some]
  cases BuiltIn.ofSymbol? c with
  | some op =>
    dsimp only
    exact meets_pure ⟨[], by simp [Expr.calls], .nil⟩
  | none =>
    dsimp only
    cases env.operators.infixOp? c with
    | none => exact meets_throw (Problem.isOfMeaning rfl rfl)
    | some op =>
      dsimp only
      cases callee : env.callee? (binaryFunctionName operator.text) with
      | none => exact meets_throw (Problem.isOfMeaning rfl rfl)
      | some p =>
        dsimp only
        exact meets_pure ⟨[(p, 2)], by simp [Expr.calls, Expr.callsAll], .one callee rfl⟩

/-- A prefix operator that is known calls the function behind it. -/
theorem meets_unaryCallee {c : Char} (known : (env.operators.prefixOp? c).isSome = true)
    (text : String) (span : Span) :
    Meets (fun p => env.callee? (unaryFunctionName text) = some p) (unaryCallee env c text span) := by
  obtain ⟨op, known⟩ := Option.isSome_iff_exists.mp known
  unfold unaryCallee
  rw [known]
  dsimp only
  cases env.callee? (unaryFunctionName text) with
  | none => exact meets_throw (Problem.isOfMeaning rfl rfl)
  | some p => exact meets_pure rfl

/-- The calls in the tree go where they are written to go. -/
def IsAnswered (env : Environment) (t : SyntaxTree) : Prop :=
  t.PrefixesIn env.operators → Meets (fun e => env.Answers t.calls e.calls) (expr env t)

theorem meets_exprs {ts : List SyntaxTree} (each : ∀ t ∈ ts, IsAnswered env t)
    (known : ∀ t ∈ ts, t.PrefixesIn env.operators) :
    Meets (fun es => env.Answers (callsAll ts) (Expr.callsAll es) ∧ es.length = ts.length)
      (exprs env ts) := by
  induction ts with
  | nil => exact meets_pure ⟨.nil, rfl⟩
  | cons t ts ih =>
    obtain ⟨first, others⟩ := List.forall_mem_cons.mp each
    obtain ⟨here, known⟩ := List.forall_mem_cons.mp known
    refine (first here).bind fun e answers => (ih others known).bind ?_
    rintro es ⟨rest, length⟩
    exact meets_pure ⟨answers.append rest, congrArg (· + 1) length⟩

theorem meets_applyAll {operators : List (Token × SyntaxTree)}
    (signs : ∀ o ∈ operators, o.1.kind = .operator ∧ IsSign o.1.text)
    (each : ∀ o ∈ operators, IsAnswered env o.2)
    (known : ∀ o ∈ operators, o.2.PrefixesIn env.operators) {left : Expr} {sites : List CallSite}
    (answers : env.Answers sites left.calls) :
    Meets (fun e => env.Answers (sites ++ callsOperators operators) e.calls)
      (applyAll env left operators) := by
  induction operators generalizing left sites with
  | nil => exact meets_pure (by simpa [callsOperators] using answers)
  | cons o rest ih =>
    obtain ⟨⟨kind, sign⟩, signs⟩ := List.forall_mem_cons.mp signs
    obtain ⟨operand, each⟩ := List.forall_mem_cons.mp each
    obtain ⟨here, known⟩ := List.forall_mem_cons.mp known
    rw [callsOperators, ← List.append_assoc, ← List.append_assoc]
    refine (operand here).bind fun right answers' => (meets_apply left right kind sign).bind ?_
    rintro whole ⟨calls, same, here⟩
    exact ih signs each known (same ▸ (answers.append answers').append here)

theorem meets_initializer {t : SyntaxTree} (form : t.IsInitializer)
    (each : ∀ v ∈ t.children, IsAnswered env v) (known : t.PrefixesIn env.operators) :
    Meets (fun l => env.Answers t.calls l.calls) (initializer env t) := by
  obtain ⟨kind, span, text, children, operators⟩ := t
  obtain ⟨rfl, rfl, single⟩ := form
  cases known with
  | node _ known _ =>
    unfold initializer
    rw [if_pos rfl]
    cases children with
    | nil => exact meets_pure .nil
    | cons value rest =>
      obtain rfl : rest = [] := List.eq_nil_of_length_eq_zero (by simpa using single)
      exact (each value List.mem_cons_self (known value List.mem_cons_self)).bind fun e answers =>
        meets_pure (by simpa [calls, callsAll, callsOperators, Kind.calls, Local.calls] using answers)

theorem meets_bindings {initializers : List SyntaxTree} {body : SyntaxTree}
    (forms : ∀ i ∈ initializers, i.IsInitializer)
    (values : ∀ i ∈ initializers, ∀ v ∈ i.children, IsAnswered env v)
    (last : IsAnswered env body) (missing : Diagnostic)
    (known : ∀ t ∈ initializers ++ [body], t.PrefixesIn env.operators) :
    Meets (fun parts => env.Answers (callsAll (initializers ++ [body]))
      (Local.callsAll parts.1 ++ parts.2.calls)) (bindings env missing (initializers ++ [body])) := by
  induction initializers with
  | nil =>
    exact (last (known body List.mem_cons_self)).bind fun e answers =>
      meets_pure (by simpa [callsAll, Local.callsAll] using answers)
  | cons first rest ih =>
    obtain ⟨form, forms⟩ := List.forall_mem_cons.mp forms
    obtain ⟨value, values⟩ := List.forall_mem_cons.mp values
    obtain ⟨here, known⟩ := List.forall_mem_cons.mp known
    have others := ih forms values known
    rw [List.cons_append]
    obtain ⟨next, more, same⟩ := List.exists_cons_of_ne_nil (List.append_ne_nil_of_right_ne_nil rest
      (List.cons_ne_nil body []))
    rw [same] at others ⊢
    unfold bindings
    refine (meets_initializer form value here).bind fun l answers => (meets_declare l).bind fun _ _ =>
      others.bind fun parts answers' => meets_pure ?_
    rw [callsAll, Local.callsAll, List.append_assoc]
    exact answers.append answers'

theorem meets_loop {counter : SyntaxTree} (form : counter.IsInitializer)
    (value : ∀ v ∈ counter.children, IsAnswered env v) (known : counter.PrefixesIn env.operators)
    {part : Local → Resolve Expr} {sites : List CallSite}
    (inside : ∀ l, Meets (fun e => ∃ calls, e.calls = l.calls ++ calls ∧ env.Answers sites calls)
      (part l)) :
    Meets (fun e => env.Answers (counter.calls ++ sites) e.calls)
      (initializer env counter >>= fun l => inScope (declare l >>= fun _ => part l)) := by
  refine (meets_initializer form value known).bind fun l answers =>
    meets_inScope ((meets_declare l).bind fun _ _ s => ?_)
  refine (inside l).imp ?_ s
  rintro e ⟨calls, same, rest⟩
  rw [same]
  exact answers.append rest

/-- What a source can write as an expression calls what it is written to call, or it has no
meaning. -/
theorem isAnswered_expr {t : SyntaxTree} (form : t.IsExpr) : IsAnswered env t := by
  induction form with
  | chain _ signs _ first rest =>
    rintro ⟨_, children, operators⟩
    unfold expr
    refine (first (children _ List.mem_cons_self)).bind fun left answers => ?_
    simpa [calls, callsAll, Kind.calls] using meets_applyAll signs rest operators answers
  | paren _ inner =>
    rintro ⟨_, children, _⟩
    unfold expr
    simpa [calls, callsAll, callsOperators, Kind.calls] using inner (children _ List.mem_cons_self)
  | @constant _ text numeral =>
    intro _
    obtain ⟨value, numeral⟩ := Option.isSome_iff_exists.mp numeral
    unfold expr
    dsimp only
    rw [numeral]
    exact meets_pure .nil
  | reference plain =>
    intro _
    unfold expr
    refine (meets_reference _ _).imp fun e none => ?_
    rw [none]
    exact .nil
  | @call _ text _ _ each =>
    rintro ⟨_, children, _⟩
    unfold expr
    dsimp only
    cases callee : env.callee? text with
    | none => exact meets_throw (Problem.isOfMeaning rfl rfl)
    | some p =>
      refine (meets_exprs each children).bind ?_
      rintro es ⟨answers, length⟩
      refine meets_pure ?_
      simp only [calls, callsOperators, Kind.calls, List.append_nil, Expr.calls]
      exact answers.append (.one callee length)
  | prefixed _ _ operand =>
    rintro ⟨sign, children, _⟩
    obtain ⟨c, first, known⟩ := sign rfl
    unfold expr
    simp only [SyntaxTree.symbol?, first, Option.getD_some]
    refine (meets_unaryCallee known _ _).bind fun p callee =>
      (operand (children _ List.mem_cons_self)).bind fun e answers => meets_pure ?_
    simp only [calls, callsAll, callsOperators, Kind.calls, List.append_nil, Expr.calls, Expr.callsAll]
    exact answers.append (.one callee rfl)
  | conditional _ _ _ first second third =>
    rintro ⟨_, children, _⟩
    unfold expr
    refine (first (children _ (by simp))).bind fun _ answers =>
      (second (children _ (by simp))).bind fun _ answers' =>
      (third (children _ (by simp))).bind fun _ answers'' =>
      (meets_declareResult _).bind fun l none => meets_pure ?_
    simp only [calls, callsAll, callsOperators, Kind.calls, List.append_nil, Expr.calls, none]
    rw [← List.append_assoc]
    exact (answers.append answers').append answers''
  | loop _ _ _ value condition body =>
    rintro ⟨_, children, _⟩
    unfold expr
    refine (meets_loop (show IsInitializer ⟨.initializer, _, _, [_], []⟩ from ⟨rfl, rfl, Nat.le_refl 1⟩)
      (by simpa using value) (children _ List.mem_cons_self) fun l =>
        (condition (children _ (by simp))).bind fun _ answers =>
        (body (children _ (by simp))).bind fun _ answers' =>
        meets_pure ⟨_, by simp [Expr.calls], answers.append answers'⟩).imp fun e answers => ?_
    simpa [calls, callsAll, callsOperators, Kind.calls] using answers
  | loopStep _ _ _ _ value condition step body =>
    rintro ⟨_, children, _⟩
    unfold expr
    refine (meets_loop (show IsInitializer ⟨.initializer, _, _, [_], []⟩ from ⟨rfl, rfl, Nat.le_refl 1⟩)
      (by simpa using value) (children _ List.mem_cons_self) fun l =>
        (condition (children _ (by simp))).bind fun _ answers =>
        (step (children _ (by simp))).bind fun _ answers' =>
        (body (children _ (by simp))).bind fun _ answers'' =>
        meets_pure ⟨_, by simp [Expr.calls], answers.append (answers'.append answers'')⟩).imp
      fun e answers => ?_
    simpa [calls, callsAll, callsOperators, Kind.calls] using answers
  | varIn forms _ _ values body =>
    rintro ⟨_, children, _⟩
    unfold expr
    refine (meets_inScope (meets_bindings forms values body _ children)).bind fun parts answers =>
      meets_pure ?_
    simpa [calls, callsOperators, Kind.calls, Expr.calls] using answers

end Resolve

end OpenExpr
