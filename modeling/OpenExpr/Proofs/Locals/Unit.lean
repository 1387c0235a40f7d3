import OpenExpr.Proofs.Locals.Expression
import OpenExpr.Proofs.Registry.Steps

namespace OpenExpr

/-- The definition lists the local variables of its body, each of them once and in the order in
which they are declared, and the results among them are numbered from the first on. -/
structure FunctionDefinition.ListsLocals (d : FunctionDefinition) : Prop where
  locals : d.locals = d.body.locals
  numbered : ∃ k, generatedNames d.locals = (List.range k).map resultName
  distinct : (generatedNames d.locals).Nodup

theorem FunctionDefinition.ListsLocals.of_numbered {d : FunctionDefinition} {n : Nat}
    (same : d.locals = d.body.locals) (numbered : Numbered 0 n d.locals) : d.ListsLocals where
  locals := same
  numbered := by
    obtain ⟨k, _, names⟩ := numbered
    exact ⟨k, List.range_eq_range' ▸ names⟩
  distinct := numbered.nodup

/-- The program is a single unit, and if that is a definition, it lists its local variables. -/
inductive Program.ListsLocals : Program → Prop
  | definition {d} : d.ListsLocals → ListsLocals (.definition d)
  | prototype {p} : ListsLocals (.prototype p)
  | error {d} : ListsLocals (.error d)

theorem Program.ListsLocals.of_mem_units {u : Program} (lists : u.ListsLocals)
    {d : FunctionDefinition} (member : .definition d ∈ u.units) : d.ListsLocals := by
  cases lists with
  | definition lists =>
    cases List.mem_singleton.mp member
    exact lists
  | prototype => simp [units] at member
  | error => simp [units] at member

namespace ResolveUnit

variable {α β : Type} {Q : α → Resolver → Prop} {Q' : β → Resolver → Prop}

/-- If there is a result, it is a good one. -/
def IfOk (Q : α → Resolver → Prop) : EStateM.Result Diagnostic Resolver α → Prop
  | .ok a r => Q a r
  | .error _ _ => True

theorem IfOk.bind {p : ResolveUnit α} {f : α → ResolveUnit β} {r : Resolver} (first : IfOk Q (p r))
    (next : ∀ a r', Q a r' → IfOk Q' (f a r')) : IfOk Q' ((p >>= f) r) := by
  cases run : p r with
  | ok a r' =>
    rw [run] at first
    rw [bind_ok run]
    exact next a r' first
  | error d r' =>
    rw [bind_error run]
    trivial

theorem ifOk_onFailure {undo : Environment → Environment} {p : ResolveUnit α} {r : Resolver}
    (h : IfOk Q (p r)) : IfOk Q (onFailure undo p r) := by
  unfold onFailure
  cases run : p r with
  | ok a r' => rwa [run] at h
  | error d r' => trivial

theorem ifOk_declare (header : SyntaxTree) (isExternal : Bool) (r : Resolver) :
    IfOk (fun _ r' => r'.body = r.body) (declare header isExternal r) := by
  by_cases form : isPrototype header = true
  · by_cases accepted : r.env.AcceptsHeader header
    · rw [declare_ok form accepted]
      rfl
    · rw [declare_error form accepted]
      trivial
  · unfold declare
    rw [if_neg form]
    trivial

/-- The body is empty but for what is in scope. -/
structure IsFresh (r : Resolver) : Prop where
  locals : r.body.locals = []
  results : r.body.results = 0

/-- The body declared the local variables of the expression, and no others. -/
structure HasDeclared (e : Expr) (r : Resolver) : Prop where
  locals : r.body.locals = e.locals
  numbered : Numbered 0 r.body.results e.locals

theorem ifOk_inBody {part : Environment → Resolve Expr} {r : Resolver} (fresh : IsFresh r)
    (declares : Resolve.DeclaresLocals (part r.env)) : IfOk HasDeclared (inBody part r) := by
  unfold inBody
  cases run : part r.env r.body with
  | error d b => trivial
  | ok e b =>
    obtain ⟨ls, locals, numbered, rfl⟩ := declares r.body e b run
    rw [fresh.locals, List.nil_append] at locals
    rw [fresh.results] at numbered
    exact ⟨locals, numbered⟩

/-- A function that is made of its body and what the body declared. -/
theorem ifOk_define {e : Expr} {r : Resolver} (declared : HasDeclared e r) (signature : Prototype)
    (isAnonymous : Bool) (span : Span) :
    IfOk (fun u _ => Program.ListsLocals u) ((do
      let d : FunctionDefinition :=
        { signature, body := e, locals := ← takeLocals, isAnonymous, span }
      changeEnv fun env => env.define d
      return .definition d : ResolveUnit Program) r) := by
  have numbered : Numbered 0 r.body.results r.body.locals := declared.locals ▸ declared.numbered
  exact .definition (.of_numbered declared.locals numbered)

theorem declares_body (env : Environment) (ps : List Parameter) (body : SyntaxTree) :
    Resolve.DeclaresLocals (Resolve.inScope do
      Resolve.bindParameters ps
      Resolve.expr env body) :=
  Resolve.declares_inScope fun b => Resolve.declares_expr env body
    { b with scopes := ps.foldl (fun s p => s.insert p.name (.given p)) b.scopes }

theorem ifOk_functionDefinition (t : SyntaxTree) (r : Resolver) :
    IfOk (fun u _ => Program.ListsLocals u) (functionDefinition t r) := by
  unfold functionDefinition
  -- what a unit that failed has left in the body is dropped before anything is declared
  refine IfOk.bind (p := beginFunction) (Q := fun _ => IsFresh) ⟨rfl, rfl⟩ fun _ r fresh => ?_
  generalize t.children = children
  rcases children with _ | ⟨header, _ | ⟨body, _⟩⟩
  · trivial
  · trivial
  dsimp only
  rw [get_bind]
  split
  · trivial
  refine (ifOk_declare header false r).bind fun signature r' same => ?_
  have fresh' : IsFresh r' := ⟨same ▸ fresh.locals, same ▸ fresh.results⟩
  have declares := declares_body r'.env signature.parameters body
  exact (ifOk_onFailure (ifOk_inBody fresh' declares)).bind fun e r declared =>
    ifOk_define declared signature false t.span

theorem ifOk_topLevelExpression (t : SyntaxTree) (r : Resolver) :
    IfOk (fun u _ => Program.ListsLocals u) (topLevelExpression t r) := by
  unfold topLevelExpression
  refine IfOk.bind (p := beginFunction) (Q := fun _ => IsFresh) ⟨rfl, rfl⟩ fun _ r fresh => ?_
  rw [get_bind]
  refine IfOk.bind (p := changeEnv _) (Q := fun _ => IsFresh) ⟨fresh.locals, fresh.results⟩ fun _ r fresh => ?_
  generalize t.children = children
  rcases children with _ | ⟨body, _⟩
  · trivial
  · exact (ifOk_inBody fresh (Resolve.declares_expr r.env body)).bind fun e r declared =>
      ifOk_define declared _ true t.span

theorem ifOk_externalDeclaration (t : SyntaxTree) (r : Resolver) :
    IfOk (fun u _ => Program.ListsLocals u) (externalDeclaration t r) := by
  unfold externalDeclaration
  generalize t.children = children
  rcases children with _ | ⟨header, _⟩
  · trivial
  · exact (ifOk_declare header true r).bind fun p r' _ => Program.ListsLocals.prototype

theorem ifOk_statement (t : SyntaxTree) (r : Resolver) :
    IfOk (fun u _ => Program.ListsLocals u) (statement t r) := by
  unfold statement
  cases t.kind with
  | functionDefinition => exact ifOk_functionDefinition t r
  | externalDeclaration => exact ifOk_externalDeclaration t r
  | topLevelExpression => exact ifOk_topLevelExpression t r
  | _ => trivial

end ResolveUnit

namespace Resolver

/-- Whatever the units before left behind, a definition lists what its own body declares. -/
theorem listsLocals_unit (r : Resolver) (t : SyntaxTree) : (r.unit t).1.ListsLocals := by
  have good := ResolveUnit.ifOk_statement t r
  unfold unit
  cases run : ResolveUnit.statement t r with
  | ok u r' =>
    rw [run] at good
    exact good
  | error d r' => exact .error

theorem listsLocals_units (r : Resolver) (ts : List SyntaxTree) :
    ∀ u ∈ (r.units ts).1, u.ListsLocals := by
  induction ts generalizing r with
  | nil => simp [units]
  | cons t ts ih =>
    rw [units_cons]
    exact List.forall_mem_cons.mpr ⟨r.listsLocals_unit t, ih _⟩

end Resolver

theorem Environment.listsLocals_resolve (env : Environment) (t : SyntaxTree)
    {d : FunctionDefinition} (member : .definition d ∈ (env.resolve t).1.units) : d.ListsLocals := by
  unfold resolve at member
  cases kind : t.kind <;> simp only [kind] at member
  case fullSource =>
    exact ((Resolver.listsLocals_units { env } t.children) _ member).of_mem_units (List.mem_singleton_self _)
  case repl =>
    generalize t.children = children at member
    rcases children with _ | ⟨unit, _⟩
    · simp [Program.units] at member
    · exact ((Resolver.listsLocals_unit { env } unit)).of_mem_units member
  all_goals exact ((Resolver.listsLocals_unit { env } t)).of_mem_units member

namespace Session

variable (s : Session) (text : String) {d : FunctionDefinition}

theorem listsLocals_parse (member : .definition d ∈ (s.parse text).1.units) : d.ListsLocals := by
  unfold parse at member
  rcases read : s.syntaxTree .repl text with ⟨e | t, s'⟩ <;> rw [read] at member
  · dsimp only at member
    split at member <;> simp [Program.units, canceled] at member
  · exact s'.env.listsLocals_resolve t member

theorem listsLocals_parseSource (member : .definition d ∈ (s.parseSource text).1.units) :
    d.ListsLocals := by
  unfold parseSource at member
  rcases read : s.syntaxTree .fullSource text with ⟨e | t, s'⟩ <;> rw [read] at member
  · simp [Program.units] at member
  · exact s'.env.listsLocals_resolve t member

theorem listsLocals_parseStatement (complete : (s.parseStatement text).1 = .complete (.definition d)) :
    d.ListsLocals := by
  unfold parseStatement at complete
  rcases read : s.syntaxTree .repl text with ⟨e | t, s'⟩ <;> rw [read] at complete
  · dsimp only at complete
    split at complete <;> cases complete
  · dsimp only at complete
    split at complete
    · have only : (s'.env.resolve t).1 = .definition d := StatementResult.complete.inj complete
      refine s'.env.listsLocals_resolve t ?_
      rw [only]
      exact List.mem_singleton_self _
    · cases complete

theorem listsLocals_parseBytes {input : Except String ByteArray} {u : Program}
    (read : (s.parseBytes input).1 = .ok u) (member : .definition d ∈ u.units) : d.ListsLocals := by
  unfold parseBytes at read
  cases text : input.bind InputError.decode with
  | error message =>
    rw [text] at read
    cases read
  | ok text' =>
    rw [text] at read
    cases read
    exact s.listsLocals_parseSource text' member

end Session

/-- Whatever a session knows, each definition that it reads lists its local variables: those of
its body, each of them once and in the order of their declarations. The variables for the results
of conditionals are numbered among them, whatever else was read before or failed half-way. -/
theorem locals_in_declaration_order (s : Session) (text : String) (input : Except String ByteArray)
    (d : FunctionDefinition) :
    (.definition d ∈ (s.parse text).1.units → d.ListsLocals) ∧
    (.definition d ∈ (s.parseSource text).1.units → d.ListsLocals) ∧
    ((s.parseStatement text).1 = .complete (.definition d) → d.ListsLocals) ∧
    ∀ u, (s.parseBytes input).1 = .ok u → .definition d ∈ u.units → d.ListsLocals :=
  ⟨s.listsLocals_parse text, s.listsLocals_parseSource text, s.listsLocals_parseStatement text,
    fun _ => s.listsLocals_parseBytes⟩

/-- A unit fails behind its conditional, and the next one has results in its results. -/
example :
    let u := ((Session.new {}).parseSource "def f(x) (if x then 1 else 2) + y;
      def g(x) if (var a = if x then 1 else 2 in a) then (for i = 1, i < x in x) else x;").1
    (u.units.map fun u => match u with
      | .definition d => d.locals.map Local.name
      | _ => []) = [[], ["$ifresult$0", "a", "i", "$ifresult$1"]] := by
  decide +kernel

end OpenExpr
