import OpenExpr.Proofs.Registry.Steps

namespace OpenExpr

namespace Environment

/-- Whatever is declared stays declared, with as many parameters. -/
def KeepsArities (env env' : Environment) : Prop :=
  ∀ (name : String) (p : Prototype), env.declarations[name]? = some p →
    ∃ p' : Prototype, env'.declarations[name]? = some p' ∧ p'.arity = p.arity

/-- Each function is kept under its own name, and one that was defined under a name is
declared there with as many parameters. -/
structure IsFiled (env : Environment) : Prop where
  declared : ∀ (name : String) (p : Prototype), env.declarations[name]? = some p → p.name = name
  defined : ∀ (name : String) (d : FunctionDefinition), env.definitions[name]? = some d →
    d.name = name ∧ (d.isAnonymous = false →
      ∃ p : Prototype, env.declarations[name]? = some p ∧ p.arity = d.signature.arity)

/-- What may become of the registries: no declaration is lost or changes its number of
parameters, and what is filed stays filed. -/
structure Develops (env env' : Environment) : Prop where
  arities : env.KeepsArities env'
  filed : env.IsFiled → env'.IsFiled

variable {env env' env'' : Environment}

theorem Develops.of_eq (declarations : env'.declarations = env.declarations)
    (definitions : env'.definitions = env.definitions) : env.Develops env' where
  arities _ p known := ⟨p, declarations ▸ known, rfl⟩
  filed filed := ⟨declarations ▸ filed.declared, definitions ▸ declarations ▸ filed.defined⟩

theorem Develops.refl (env : Environment) : env.Develops env :=
  .of_eq rfl rfl

theorem Develops.trans (first : env.Develops env') (second : env'.Develops env'') :
    env.Develops env'' where
  arities name p known := by
    obtain ⟨p', known', same⟩ := first.arities name p known
    obtain ⟨p'', known'', same'⟩ := second.arities name p' known'
    exact ⟨p'', known'', same'.trans same⟩
  filed filed := second.filed (first.filed filed)

/-- A declaration that is accepted replaces none with another number of parameters. -/
theorem develops_declare {p : Prototype} (accepted : ∀ previous,
    env.declarations[p.name]? = some previous → previous.arity = p.arity) :
    env.Develops (env.declare p) := by
  have arities : env.KeepsArities (env.declare p) := by
    intro name previous known
    rw [getElem?_declare]
    split
    · rename_i here
      exact ⟨p, rfl, (accepted previous (here ▸ known)).symm⟩
    · exact ⟨previous, known, rfl⟩
  refine ⟨arities, fun filed => ⟨fun name p' known => ?_, fun name d known => ?_⟩⟩
  · rw [getElem?_declare] at known
    split at known
    · rename_i here
      rwa [← Option.some.inj known]
    · exact filed.declared name p' known
  · obtain ⟨named, declared⟩ := filed.defined name d known
    refine ⟨named, fun written => ?_⟩
    obtain ⟨previous, before, same⟩ := declared written
    obtain ⟨p', after, same'⟩ := arities name previous before
    exact ⟨p', after, same'.trans same⟩

/-- A function is defined that is declared already, or that no source has named. -/
theorem develops_define {d : FunctionDefinition} (declared : d.isAnonymous = false →
    ∃ p : Prototype, env.declarations[d.name]? = some p ∧ p.arity = d.signature.arity) :
    env.Develops (env.define d) := by
  refine ⟨fun name p known => ⟨p, known, rfl⟩, fun filed => ⟨filed.declared, fun name d' known => ?_⟩⟩
  rw [getElem?_define] at known
  split at known
  · rename_i here
    cases known
    subst here
    exact ⟨rfl, declared⟩
  · exact filed.defined name d' known

/-- A header that is accepted is declared with the number of parameters that was declared
before. -/
theorem develops_declare_of_accepted {header : SyntaxTree} (accepted : env.AcceptsHeader header)
    (isExternal : Bool) : env.Develops (env.declare (ResolveUnit.prototypeOf header isExternal)) :=
  develops_declare fun previous known =>
    (accepted previous known).trans (ResolveUnit.arity_prototypeOf header isExternal).symm

/-- A definition is declared before it is defined; a bare expression is only counted. -/
theorem Resolves.develops {t : SyntaxTree} {u : Program} (resolves : env.Resolves t u env') :
    env.Develops env' := by
  obtain ⟨_, step, meaning, _, accepted⟩ := resolves
  have counted : env.Develops env.countAnonymous := .of_eq rfl rfl
  cases meaning with
  | refused =>
    cases step with
    | refused => exact .refl env
    | bareRefused => exact counted
  | declaration =>
    cases step
    exact develops_declare_of_accepted (accepted rfl) true
  | @definition _ _ header _ d signature _ =>
    cases step with
    | bare kind => cases kind
    | defined =>
      rw [signature]
      refine (develops_declare_of_accepted (accepted rfl).2 false).trans (develops_define fun _ => ?_)
      refine ⟨d.signature, ?_, rfl⟩
      rw [← signature, getElem?_declare, FunctionDefinition.name, if_pos rfl]
  | bare =>
    cases step with
    | defined kind => cases kind
    | bare _ _ isAnonymous =>
      exact counted.trans (develops_define fun written => absurd (isAnonymous.symm.trans written) (by simp))

end Environment

namespace Session

/-- Reading the text of a command has no part in what is known of functions. -/
theorem develops_perform (s : Session) (c : Command) : s.env.Develops (s.perform c).2.env := by
  obtain ⟨ops, us, env, _, steps, done, _⟩ := s.perform_steps c
  rw [done]
  exact (steps.invariant (P := s.env.Develops) (fun resolves before => before.trans resolves.develops)
    (.of_eq rfl rfl)).1

theorem develops_parseBytes (s : Session) (input : Except String ByteArray) :
    s.env.Develops (s.parseBytes input).2.env := by
  unfold parseBytes
  split
  · exact .refl _
  · rename_i text _
    exact s.perform_source_session text ▸ s.develops_perform (.source text)

/-- What a session is given: a command with its text, or a source that is delivered in bytes,
or the message with which its delivery failed. -/
inductive Input where
  | command (c : Command)
  | bytes (input : Except String ByteArray)

def take (s : Session) : Input → Session
  | .command c => (s.perform c).2
  | .bytes input => (s.parseBytes input).2

/-- The session after inputs that it is given one after the other. -/
def takeAll (s : Session) : List Input → Session
  | [] => s
  | i :: is => (s.take i).takeAll is

theorem develops_take (s : Session) (i : Input) : s.env.Develops (s.take i).env := by
  cases i with
  | command c => exact s.develops_perform c
  | bytes input => exact s.develops_parseBytes input

theorem develops_takeAll (s : Session) (is : List Input) : s.env.Develops (s.takeAll is).env := by
  induction is generalizing s with
  | nil => exact .refl _
  | cons i is ih => exact (s.develops_take i).trans (ih (s.take i))

theorem isFiled_new (options : Options) : (new options).env.IsFiled where
  declared name p known := by simp [new] at known
  defined name d known := by simp [new] at known

end Session

/-- In a session that only reads texts a function that is declared after some of them stays
declared after all later ones, with as many parameters, whatever is declared again, defined,
refused or taken back in between. All the time each function is kept under its own name, and
what sources define is declared with as many parameters. -/
theorem declared_arity_kept (options : Options) (file : String) (earlier later : List Session.Input) :
    let start : Session := { Session.new options with sourceName := file }
    let s := start.takeAll earlier
    s.env.KeepsArities (s.takeAll later).env ∧ s.env.IsFiled := by
  intro start s
  exact ⟨(s.develops_takeAll later).arities,
    (start.develops_takeAll earlier).filed (Session.isFiled_new options)⟩

/-- A definition that fails, one with too few parameters and one that is accepted. -/
example :
    let s := (Session.new {}).takeAll [.command (.statement "extern f(a b);")]
    let s' := s.takeAll [.command (.statement "def f(x y) z;"),
      .bytes (.ok "def f(x) x; def f(c d) c + d;".toUTF8)]
    s.env.declarations["f"]?.map (fun p => (p.isExternal, p.arity)) = some (true, 2) ∧
      s'.env.declarations["f"]?.map (fun p => (p.isExternal, p.arity)) = some (false, 2) := by
  decide +kernel

end OpenExpr
