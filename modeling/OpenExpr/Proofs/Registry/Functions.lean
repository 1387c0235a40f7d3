import OpenExpr.Proofs.Registry.Log

namespace OpenExpr

namespace CallSite

variable {site site' : CallSite}

/-- The call is by an operator, built in or not. -/
def IsOperator : CallSite → Prop
  | function _ _ => False
  | infixOp text | prefixOp text => IsSign text

/-- No two operators have the same function. -/
theorem IsOperator.eq (operator : site.IsOperator) (operator' : site'.IsOperator)
    (same : site.functionName = site'.functionName) : site = site' := by
  cases site with
  | function => exact operator.elim
  | infixOp text =>
    cases site' with
    | function => exact operator'.elim
    | infixOp text' => exact congrArg _ (binaryFunctionName_injective same)
    | prefixOp text' => exact absurd same (binaryFunctionName_ne_unary text text')
  | prefixOp text =>
    cases site' with
    | function => exact operator'.elim
    | infixOp text' => exact absurd same.symm (binaryFunctionName_ne_unary text' text)
    | prefixOp text' => exact congrArg _ (unaryFunctionName_injective same)

theorem IsOperator.ne_plain (operator : site.IsOperator) {name : String} (plain : IsPlain name) :
    site.functionName ≠ name := by
  cases site with
  | function => exact operator.elim
  | infixOp text => exact fun same => isPlain_ne_binary plain same.symm
  | prefixOp text => exact fun same => isPlain_ne_unary plain same.symm

theorem IsOperator.ne_anonymous (operator : site.IsOperator) (env : Environment) :
    site.functionName ≠ env.nextAnonymousName := by
  cases site with
  | function => exact operator.elim
  | infixOp text | prefixOp text =>
    obtain ⟨c, letter, noDigit⟩ := operator
    exact env.append_ne_nextAnonymousName letter noDigit

end CallSite

/-- The function is kept under its own name. One behind an operator has a parameter for
each operand, and the operator is one that sources define. -/
structure Prototype.Serves (p : Prototype) (name : String) : Prop where
  named : p.name = name
  operands : ∀ site : CallSite, site.IsOperator → site.functionName = name →
    site.IsWritten ∧ p.arity = site.arguments

theorem SyntaxTree.Alike.writes_head {t t' : SyntaxTree} (alike : t.Alike t') :
    ∀ first ∈ t.children.head?, first.kind.Writes first.text := by
  cases alike with
  | node _ children _ =>
    cases children with
    | nil => simp
    | cons one _ =>
      cases one
      simpa

namespace ResolveUnit

/-- A header writes a function that serves the name that it writes. -/
theorem serves_prototypeOf {header : SyntaxTree} (form : isPrototype header = true)
    (writes : header.kind.Writes header.text) {op? : Option OperatorDefinition}
    (introduces : header.Introduces op?) (isExternal : Bool) :
    (prototypeOf header isExternal).Serves (prototypeName header) := by
  refine ⟨rfl, fun site operator same => ?_⟩
  rw [arity_prototypeOf]
  obtain ⟨kind, span, text, children, operators⟩ := header
  cases kind with
  | functionPrototype => exact absurd same (operator.ne_plain writes)
  | unaryPrototype =>
    obtain rfl : site = .prefixOp text := operator.eq writes same
    exact ⟨writes, introduces.1⟩
  | binaryPrototype =>
    obtain rfl : site = .infixOp text := operator.eq writes same
    obtain ⟨c, letter, noDigit⟩ := writes
    obtain ⟨two, op, _, _, first, free⟩ := introduces
    rw [show text.toList = [c] from letter] at first
    cases first
    exact ⟨⟨_, letter, noDigit, free⟩, two⟩
  | _ => cases form

end ResolveUnit

namespace Environment

variable {env env' : Environment}

/-- An entry of one of the registries. -/
def Keeps (env : Environment) (name : String) (p : Prototype) : Prop :=
  env.declarations[name]? = some p ∨ ∃ d, env.definitions[name]? = some d ∧ d.signature = p

/-- Every function that is kept serves its name. -/
def IsServed (env : Environment) : Prop :=
  ∀ name p, env.Keeps name p → p.Serves name

theorem keeps_of_callee? {name : String} {p : Prototype} (known : env.callee? name = some p) :
    env.Keeps name p := by
  unfold callee? at known
  cases found : env.definitions[name]? with
  | none =>
    rw [found] at known
    exact .inl known
  | some d =>
    rw [found] at known
    exact .inr ⟨d, found, Option.some.inj known⟩

theorem keeps_declare {p p' : Prototype} {name : String} (kept : (env.declare p).Keeps name p') :
    env.Keeps name p' ∨ p.name = name ∧ p' = p := by
  rcases kept with declared | defined
  · rw [getElem?_declare] at declared
    split at declared
    · rename_i same
      exact .inr ⟨same, (Option.some.inj declared).symm⟩
    · exact .inl (.inl declared)
  · exact .inl (.inr defined)

theorem keeps_define {d : FunctionDefinition} {p : Prototype} {name : String}
    (kept : (env.define d).Keeps name p) : env.Keeps name p ∨ d.name = name ∧ p = d.signature := by
  rcases kept with declared | ⟨d', defined, rfl⟩
  · exact .inl (.inl declared)
  · rw [getElem?_define] at defined
    split at defined
    · rename_i same
      exact .inr ⟨same, congrArg _ (Option.some.inj defined).symm⟩
    · exact .inl (.inr ⟨d', defined, rfl⟩)

theorem IsServed.declare (served : env.IsServed) {p : Prototype} (serves : p.Serves p.name) :
    (env.declare p).IsServed := by
  intro name p' kept
  rcases keeps_declare kept with old | ⟨rfl, rfl⟩
  · exact served name p' old
  · exact serves

theorem IsServed.define (served : env.IsServed) {d : FunctionDefinition}
    (serves : d.signature.Serves d.name) : (env.define d).IsServed := by
  intro name p kept
  rcases keeps_define kept with old | ⟨rfl, rfl⟩
  · exact served name p old
  · exact serves

end Environment

/-- The function of a statement serves the name that its header writes. -/
theorem SyntaxTree.IsSource.serves {table : OperatorTable} {t header : SyntaxTree}
    (source : t.IsSource table) (other : t.kind ≠ .topLevelExpression)
    (first : t.children.head? = some header) (isExternal : Bool) :
    (ResolveUnit.prototypeOf header isExternal).Serves (ResolveUnit.prototypeName header) := by
  obtain ⟨op?, introduces⟩ := source.header
  have writes := source.read.fits.alike.writes_head header first
  have introduced := introduces other header first
  cases source.read.fits.form with
  | definition form | declaration form =>
    cases first
    exact ResolveUnit.serves_prototypeOf form writes introduced isExternal
  | bare => exact absurd rfl other

/-- What a statement makes known serves its name. -/
theorem Environment.Resolves.isServed {env env' : Environment} {t : SyntaxTree} {u : Program}
    (resolves : env.Resolves t u env') (served : env.IsServed) : env'.IsServed := by
  obtain ⟨source, step, meaning, _⟩ := resolves
  cases meaning with
  | refused => cases step <;> exact served
  | declaration =>
    have serves := source.serves (by simp) rfl true
    cases step
    exact served.declare serves
  | @definition _ _ header _ d signature _ =>
    have serves := source.serves (by simp) rfl false
    have own : d.signature.Serves d.name := by
      rw [FunctionDefinition.name, signature]
      exact serves
    cases step with
    | defined => exact (served.declare own).define own
    | bare kind => cases kind
  | bare =>
    cases step with
    | defined kind => cases kind
    | bare _ name =>
      exact served.define
        ⟨rfl, fun site operator same => absurd (same.trans name) (operator.ne_anonymous env)⟩

namespace Session

theorem isServed_new (options : Options) : (new options).env.IsServed := by
  rintro name p (declared | ⟨d, defined, _⟩)
  · simp [new] at declared
  · simp [new] at defined

theorem isServed_perform {s : Session} (served : s.env.IsServed) (c : Command) :
    (s.perform c).2.env.IsServed := by
  obtain ⟨ops, us, env, _, steps, done, _⟩ := s.perform_steps c
  rw [done]
  exact (steps.invariant Environment.Resolves.isServed served).1

theorem isServed_run {s : Session} (served : s.env.IsServed) (cs : List Command) :
    (s.run cs).2.env.IsServed := by
  induction cs generalizing s with
  | nil => exact served
  | cons c cs ih => exact ih (isServed_perform served c)

/-- Commands do to a session what they do as events. -/
theorem run_eq_after (s : Session) (cs : List Command) :
    (s.run cs).2 = s.after (cs.map Event.command) := by
  induction cs generalizing s with
  | nil => rfl
  | cons c cs ih => exact ih (s.perform c).2

/-- In a session that only reads texts no operator but those built in counts as built in. -/
theorem operators_run (options : Options) (file : String) (cs : List Command) : ∃ ops,
    (Session.run { new options with sourceName := file } cs).2.env.operators =
      OperatorTable.empty.registerAll ops := by
  obtain ⟨parts, _, table⟩ :=
    Session.after_registers { new options with sourceName := file } (cs.map Event.command)
  exact ⟨parts.flatten, (congrArg (fun s => s.env.operators) (run_eq_after _ cs)).trans table⟩

end Session

namespace OperatorTable

variable {c : Char} {op : Operator} {ops : List OperatorDefinition}

theorem isBuiltIn_of_lastRegistered? {between : Bool} (known : lastRegistered? between c ops = some op) :
    op.isBuiltIn = false := by
  obtain ⟨_, _, rfl⟩ := Option.map_eq_some_iff.mp known
  rfl

theorem isBuiltIn_of_infixOp? (free : BuiltIn.ofSymbol? c = none)
    (known : (empty.registerAll ops).infixOp? c = some op) : op.isBuiltIn = false := by
  rw [infixOp?_registerAll free, infixOp?_empty free, Option.or_none] at known
  exact isBuiltIn_of_lastRegistered? known

theorem isBuiltIn_of_prefixOp? (known : (empty.registerAll ops).prefixOp? c = some op) :
    op.isBuiltIn = false := by
  rw [prefixOp?_registerAll, prefixOp?_empty, Option.or_none] at known
  exact isBuiltIn_of_lastRegistered? known

end OperatorTable

theorem Environment.isSome_callee?_of_keeps {env : Environment} {name : String} {p : Prototype}
    (kept : env.Keeps name p) : (env.callee? name).isSome = true := by
  unfold callee?
  rcases kept with declared | ⟨d, defined, _⟩
  · cases env.definitions[name]? with
    | none => exact Option.isSome_of_eq_some declared
    | some _ => rfl
  · rw [defined]
    rfl

/-- The call goes to the function that is written, with the arguments that are written. Those
of an operator are as many as the function has parameters, and a name that is written is not
that of a function behind an operator. -/
def CallSite.Fits (site : CallSite) (call : Prototype × Nat) : Prop :=
  call.1.name = site.functionName ∧ call.2 = site.arguments ∧
    match site with
    | .function _ _ => ∀ text,
        call.1.name ≠ binaryFunctionName text ∧ call.1.name ≠ unaryFunctionName text
    | .infixOp _ | .prefixOp _ => call.1.arity = call.2

namespace Environment.IsServed

variable {env : Environment}

theorem fits_of_reaches (served : env.IsServed) {site : CallSite} (written : site.IsWritten)
    {call : Prototype × Nat} (reaches : env.Reaches site call) : site.Fits call := by
  obtain ⟨known, arguments⟩ := reaches
  have serves := served _ _ (keeps_of_callee? known)
  refine ⟨serves.named, arguments, ?_⟩
  cases site with
  | function name n =>
    rw [serves.named]
    exact fun text => ⟨isPlain_ne_binary written, isPlain_ne_unary written⟩
  | infixOp text =>
    obtain ⟨c, letter, noDigit, _⟩ := written
    exact (serves.operands (.infixOp text) ⟨c, letter, noDigit⟩ rfl).2.trans arguments.symm
  | prefixOp text => exact (serves.operands (.prefixOp text) written rfl).2.trans arguments.symm

theorem fits (served : env.IsServed) {sites : List CallSite}
    (written : ∀ site ∈ sites, site.IsWritten) {calls : List (Prototype × Nat)}
    (answers : env.Answers sites calls) : List.Forall₂ CallSite.Fits sites calls := by
  induction answers with
  | nil => exact .nil
  | cons reaches _ ih =>
    obtain ⟨here, others⟩ := List.forall_mem_cons.mp written
    exact .cons (served.fits_of_reaches here reaches) (ih others)

end Environment.IsServed

/-- The calls of a definition fit what its statement writes, and its variables stand for what
a source binds. -/
theorem Environment.Resolves.fits {env env' : Environment} {t : SyntaxTree} {d : FunctionDefinition}
    (resolves : env.Resolves t (.definition d) env') (served : env.IsServed) :
    List.Forall₂ CallSite.Fits t.bodyCalls d.body.calls ∧
      ∀ b ∈ d.body.references, b.1.isGenerated = false := by
  obtain ⟨source, _, meaning, references⟩ := resolves
  refine ⟨?_, fun b member => ?_⟩
  · have written := source.calls
    cases meaning with
    | definition _ answers =>
      exact (served.declare (source.serves (by simp) rfl false)).fits written answers
    | bare answers => exact served.fits written answers
  · rw [show d.body.references = _ from references rfl] at member
    obtain ⟨u, use, target⟩ := List.mem_filterMap.mp member
    exact (t.seesWritten_bodyUses u use).target? target

/-- In a session that only reads texts the functions behind operators fit the operators: one
that is kept for a sign, whichever it is, belongs to an operator that was defined, and has a
parameter for each operand. So in all that texts mean each call of an operator has as many
arguments as its function has parameters. A call by a name never goes to a function behind
an operator, and no variable stands for one that was generated. -/
theorem operator_functions_fit_operators (options : Options) (file : String)
    (commands : List Session.Command) :
    let start : Session := { Session.new options with sourceName := file }
    let s := (start.run commands).2
    (∀ c p, c.isDigit = false →
      (s.env.Keeps (binaryFunctionName c.toString) p → p.arity = 2 ∧
        ∃ op, s.env.operators.infixOp? c = some op ∧ op.isBuiltIn = false) ∧
      (s.env.Keeps (unaryFunctionName c.toString) p → p.arity = 1 ∧
        ∃ op, s.env.operators.prefixOp? c = some op ∧ op.isBuiltIn = false)) ∧
    ∀ command d, .definition d ∈ (s.perform command).1 →
      (∃ t ∈ s.unitsRead command.mode command.text,
        List.Forall₂ CallSite.Fits t.bodyCalls d.body.calls) ∧
      ∀ b ∈ d.body.references, b.1.isGenerated = false := by
  intro start s
  have served : s.env.IsServed :=
    Session.isServed_run (s := start) (Session.isServed_new options) commands
  have coherent : s.env.IsCoherent :=
    Session.isCoherent_run (s := start) (Session.isCoherent_new options) commands
  obtain ⟨ops, table⟩ := Session.operators_run options file commands
  refine ⟨fun c p noDigit => ?_, fun command d given => ?_⟩
  · have letter : c.toString.toList = [c] := by simp [Char.toString]
    have admits (name : String) (kept : s.env.Keeps name p) :=
      coherent name (Environment.isSome_callee?_of_keeps kept) c.toString c letter noDigit
    refine ⟨fun kept => ?_, fun kept => ?_⟩
    · obtain ⟨⟨c', letter', _, free⟩, arity⟩ :=
        (served _ p kept).operands (.infixOp c.toString) ⟨c, letter, noDigit⟩ rfl
      obtain rfl : c = c' := (List.cons.inj (letter.symm.trans letter')).1
      obtain ⟨op, known⟩ := Option.isSome_iff_exists.mp ((admits _ kept).1 rfl)
      exact ⟨arity, op, known, OperatorTable.isBuiltIn_of_infixOp? free (table ▸ known)⟩
    · have arity := ((served _ p kept).operands (.prefixOp c.toString) ⟨c, letter, noDigit⟩ rfl).2
      obtain ⟨op, known⟩ := Option.isSome_iff_exists.mp ((admits _ kept).2 rfl)
      exact ⟨arity, op, known, OperatorTable.isBuiltIn_of_prefixOp? (table ▸ known)⟩
  · obtain ⟨ops, us, env, _, steps, _, among⟩ := s.perform_steps command
    obtain ⟨t, read, _, _, served, resolves⟩ :=
      steps.exists_of_definition Environment.Resolves.isServed served (among d given)
    obtain ⟨calls, references⟩ := resolves.fits served
    exact ⟨⟨t, read, calls⟩, references⟩

/-- Two operators with their functions, a call of each, and one by a name. -/
example :
    let s := ((Session.new {}).run [.source "def binary|5(a b) a; def unary!(v) v; def f() 1"]).2
    (s.perform (.source "def g(x) x | !f()")).1.flatMap (fun u => match u with
      | .definition d => d.body.calls.map fun call => (call.1.name, call.1.arity, call.2)
      | _ => []) = [("f", 0, 0), ("unary-op$!", 1, 1), ("binary-op$|", 2, 2)] := by
  decide +kernel

end OpenExpr
