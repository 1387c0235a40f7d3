import OpenExpr.Proofs.Growth.Expression

namespace OpenExpr

open Parse

namespace Environment

variable {env : Environment} {table : OperatorTable}

theorem IsCoherent.declare (coherent : env.IsCoherent) {p : Prototype}
    (admits : env.operators.Admits p.name) : (env.declare p).IsCoherent :=
  (coherent.alike.declare rfl ⟨admits, admits⟩).isCoherent

/-- An operator has no function before it is known itself. -/
theorem IsCoherent.lacksGained (coherent : env.IsCoherent) : env.LacksGained table := by
  rintro text ⟨d, sign, noDigit⟩ ⟨c, letter, unknown, _⟩
  obtain rfl : d = c := List.cons.inj (sign.symm.trans letter) |>.1
  by_contra found
  have known := (coherent _ (Option.isSome_iff_ne_none.mpr found) text d sign noDigit).1 rfl
  simp [unknown] at known

theorem restoreDeclaration_withOperators (env : Environment) (table : OperatorTable) (name : String)
    (previous : Option Prototype) : (env.withOperators table).restoreDeclaration name previous =
      (env.restoreDeclaration name previous).withOperators table := by
  cases previous <;> rfl

end Environment

/-- The resolver with another table of operators. -/
def Resolver.withOperators (r : Resolver) (table : OperatorTable) : Resolver :=
  { r with env := r.env.withOperators table }

namespace ResolveUnit

variable {α : Type} {late : String → Prop} {missing : Prop} {now table : OperatorTable} {r : Resolver}

theorem echo_inBody (operators : r.env.operators = now) {part : Environment → Resolve α}
    (echoes : Resolve.Echoes r.env table (part r.env) (part (r.env.withOperators table))) :
    Echo (now.Gains table) (r.env.LacksGained table) (·.withOperators table)
      (inBody part r) (inBody part (r.withOperators table)) := by
  have inner := operators ▸ echoes r.body
  unfold inBody
  dsimp only [Resolver.withOperators]
  generalize part r.env r.body = x at inner
  generalize part (r.env.withOperators table) r.body = y at inner
  cases inner with
  | ok => exact .ok
  | error => exact .error
  | late gained lacks => exact .late gained fun none => by rw [lacks none]; rfl

theorem echo_onFailure {undo : Environment → Environment} {part : ResolveUnit α}
    (blind : ∀ env, undo (env.withOperators table) = (undo env).withOperators table)
    (inner : Echo late missing (·.withOperators table) (part r) (part (r.withOperators table))) :
    Echo late missing (·.withOperators table) (onFailure undo part r)
      (onFailure undo part (r.withOperators table)) := by
  have undone (s : Resolver) : ({ s.withOperators table with env := undo (s.withOperators table).env } :
      Resolver) = Resolver.withOperators { s with env := undo s.env } table :=
    congrArg (fun env => { s with env }) (blind s.env)
  unfold onFailure
  generalize part r = x at inner
  generalize part (r.withOperators table) = y at inner
  cases inner with
  | ok => exact .ok
  | error =>
    dsimp only
    rw [undone]
    exact .error
  | late gained lacks => exact .late gained fun none => by rw [lacks none, ← undone]

/-- A header is accepted or refused whatever operators are known. -/
theorem echo_declare {t : SyntaxTree} (form : isPrototype t = true) (isExternal : Bool) :
    Echo late missing (·.withOperators table) (declare t isExternal r)
      (declare t isExternal (r.withOperators table)) := by
  by_cases accepted : r.env.AcceptsHeader t
  · rw [declare_ok form accepted, declare_ok (r := r.withOperators table) form accepted]
    exact .ok
  · rw [declare_error form accepted, declare_error (r := r.withOperators table) form accepted]
    exact .error

/-- An accepted header declares its function and changes nothing else. -/
theorem eq_of_declare_ok {t : SyntaxTree} (form : isPrototype t = true) {isExternal : Bool} {p : Prototype}
    {r' : Resolver} (run : declare t isExternal r = .ok p r') :
    p = prototypeOf t isExternal ∧ r' = { r with env := r.env.declare p } := by
  by_cases accepted : r.env.AcceptsHeader t
  · rw [declare_ok form accepted] at run
    cases run
    exact ⟨rfl, rfl⟩
  · rw [declare_error form accepted] at run
    cases run

/-- What the body of a function means in the environment that its header leaves. -/
theorem echo_body (operators : r.env.operators = now) (within : now.Within table) {body : SyntaxTree}
    (form : body.IsExpr) (known : body.PrefixesIn now) (parameters : List Parameter) :
    Echo (now.Gains table) (r.env.LacksGained table) (·.withOperators table)
      (inBody (fun env => Resolve.inScope do
        Resolve.bindParameters parameters
        Resolve.expr env body) r)
      (inBody (fun env => Resolve.inScope do
        Resolve.bindParameters parameters
        Resolve.expr env body) (r.withOperators table)) := by
  subst operators
  exact echo_inBody rfl ((Resolve.echoes_refl _).bind fun _ => Resolve.echoes_expr within form known).inScope

/-- The end of a definition: what has been resolved becomes known. -/
theorem echo_define (signature : Prototype) (body : Expr) (isAnonymous : Bool) (span : Span) :
    let rest : ResolveUnit Program := do
      let d : FunctionDefinition := { signature, body, locals := ← takeLocals, isAnonymous, span }
      changeEnv fun env => env.define d
      return .definition d
    Echo late missing (·.withOperators table) (rest r) (rest (r.withOperators table)) :=
  .ok

theorem echo_functionDefinition (within : r.env.operators.Within table) {span : Span} {text : String}
    {header body : SyntaxTree} (isHeader : isPrototype header = true) (form : body.IsExpr)
    (known : body.PrefixesIn r.env.operators) :
    Echo (r.env.operators.Gains table)
      (r.env.IsCoherent ∧ r.env.operators.Admits (prototypeName header)) (·.withOperators table)
      (functionDefinition { kind := .functionDefinition, span, text, children := [header, body] } r)
      (functionDefinition { kind := .functionDefinition, span, text, children := [header, body] }
        (r.withOperators table)) := by
  unfold functionDefinition
  refine Echo.bind (p := beginFunction) .ok fun _ r0 begun => ?_
  cases begun
  dsimp only
  rw [get_bind, get_bind]
  refine Echo.ite .error ?_
  refine (echo_declare isHeader false).bind fun signature r1 declared => ?_
  obtain ⟨rfl, rfl⟩ := eq_of_declare_ok isHeader declared
  refine Echo.bind ?_ fun e r2 _ => echo_define _ e false span
  refine echo_onFailure (fun env => env.restoreDeclaration_withOperators table _ _) ?_
  -- the header is declared by now, under a name that the operators admit
  refine Echo.imp (echo_body ?_ within form known _) fun coherent => ?_
  · rfl
  · exact (coherent.1.declare coherent.2).lacksGained

theorem echo_topLevelExpression (within : r.env.operators.Within table) {span : Span} {text : String}
    {body : SyntaxTree} (form : body.IsExpr) (known : body.PrefixesIn r.env.operators) :
    Echo (r.env.operators.Gains table) r.env.IsCoherent (·.withOperators table)
      (topLevelExpression { kind := .topLevelExpression, span, text, children := [body] } r)
      (topLevelExpression { kind := .topLevelExpression, span, text, children := [body] }
        (r.withOperators table)) := by
  unfold topLevelExpression
  refine Echo.bind (p := beginFunction) .ok fun _ r0 begun => ?_
  cases begun
  dsimp only
  rw [get_bind, get_bind]
  refine Echo.bind (p := changeEnv _) .ok fun _ r1 counted => ?_
  cases counted
  refine Echo.bind ?_ fun e r2 _ => echo_define _ e true span
  have within : r.env.countAnonymous.operators.Within table := within
  refine Echo.imp (echo_inBody ?_ ?_) fun coherent => ?_
  · rfl
  · exact Resolve.echoes_expr within form known
  · exact coherent.lacksGained

/-- The same comes of a statement with the operators that become known after it, but for an
operator that it uses and that is one of them. -/
theorem echo_statement (within : r.env.operators.Within table) {t : SyntaxTree}
    (read : t.IsReadWith r.env.operators) : Echo (r.env.operators.Gains table) r.env.IsCoherent
      (·.withOperators table) (statement t r) (statement t (r.withOperators table)) := by
  obtain ⟨⟨form, _, admits⟩, known⟩ := read
  cases form with
  | @definition _ _ header _ isHeader isExpr =>
    exact (echo_functionDefinition within isHeader isExpr (known (by simp) _ rfl)).imp fun coherent =>
      ⟨coherent, admits (by simp) header rfl⟩
  | declaration isHeader => exact (echo_declare isHeader true).bind fun _ _ _ => .ok
  | bare isExpr => exact echo_topLevelExpression within isExpr (known (by simp) _ rfl)

end ResolveUnit

/-- The unit is an error for an operator that only the second table has. -/
def Program.IsLate (table table' : OperatorTable) (u : Program) : Prop :=
  ∃ text span, table.Gains table' text ∧
    u = .error ((Problem.notBinaryOperator text).diagnostic span)

/-- What comes of a unit when more operators are known: the same, but that an operator
which was not known then lacks its function. -/
inductive Program.Echoes (table table' : OperatorTable) : Program → Program → Prop
  | same {u} : Echoes table table' u u
  | late {text} (span : Span) : table.Gains table' text →
      Echoes table table' (.error ((Problem.notBinaryOperator text).diagnostic span))
        (.error ((Problem.missingBinaryFunction (binaryFunctionName text)).diagnostic span))

namespace Resolver

variable {now table : OperatorTable} {r : Resolver} {ts : List SyntaxTree}

theorem units_cons (r : Resolver) (t : SyntaxTree) (ts : List SyntaxTree) : r.units (t :: ts) =
    ((r.unit t).1 :: ((r.unit t).2.units ts).1, ((r.unit t).2.units ts).2) := rfl

theorem units_append (r : Resolver) (ts more : List SyntaxTree) : r.units (ts ++ more) =
    ((r.units ts).1 ++ ((r.units ts).2.units more).1, ((r.units ts).2.units more).2) := by
  induction ts generalizing r with
  | nil => rfl
  | cons t ts ih => rw [List.cons_append, units_cons, units_cons, ih, List.cons_append]

theorem length_units (r : Resolver) (ts : List SyntaxTree) : (r.units ts).1.length = ts.length := by
  induction ts generalizing r with
  | nil => rfl
  | cons t ts ih => rw [units_cons, List.length_cons, List.length_cons, ih]

/-- A unit comes out the same with more operators, or one of these was missing. -/
theorem unit_withOperators (operators : r.env.operators = now) (within : now.Within table)
    {t : SyntaxTree} (read : t.IsReadWith now ∨ t.kind = .error) :
    (r.withOperators table).unit t = ((r.unit t).1, (r.unit t).2.withOperators table) ∨
      ∃ text span, now.Gains table text ∧
        (r.unit t).1 = .error ((Problem.notBinaryOperator text).diagnostic span) ∧
        (r.env.IsCoherent → (r.withOperators table).unit t =
          (.error ((Problem.missingBinaryFunction (binaryFunctionName text)).diagnostic span),
            (r.unit t).2.withOperators table)) := by
  subst operators
  rcases read with read | error
  · have echo := ResolveUnit.echo_statement within read
    unfold unit
    generalize ResolveUnit.statement t r = x at echo
    generalize ResolveUnit.statement t (r.withOperators table) = y at echo
    cases echo with
    | ok | error => exact .inl rfl
    | late gained lacks => exact .inr ⟨_, _, gained, rfl, fun coherent => by rw [lacks coherent]⟩
  · exact .inl (by rw [unit_of_error error, unit_of_error error])

theorem operators_unit {t : SyntaxTree} (form : t.IsUnit ∨ t.kind = .error)
    (idle : r.body.scopes.Sees []) : (r.unit t).2.env.operators = r.env.operators ∧
      (r.unit t).2.body.scopes.Sees [] := by
  rcases form with form | error
  · exact ⟨(resolved_unit form idle).step.operators, (resolved_unit form idle).scopes⟩
  · rw [unit_of_error error]
    exact ⟨rfl, idle⟩

theorem operators_units (forms : ∀ t ∈ ts, t.IsUnit ∨ t.kind = .error) (idle : r.body.scopes.Sees []) :
    (r.units ts).2.env.operators = r.env.operators := by
  induction ts generalizing r with
  | nil => rfl
  | cons t ts ih =>
    obtain ⟨form, forms⟩ := List.forall_mem_cons.mp forms
    obtain ⟨kept, idle⟩ := operators_unit form idle
    exact (ih forms idle).trans kept

/-- Up to the first unit in which an operator is missing all come out the same with more
operators. -/
theorem prefix_units_withOperators (operators : r.env.operators = now) (idle : r.body.scopes.Sees [])
    (within : now.Within table) (read : ∀ t ∈ ts, t.IsReadWith now ∨ t.kind = .error)
    {front : List Program} (before : front <+: (r.units ts).1)
    (none : ∀ u ∈ front, ¬ u.IsLate now table) : front <+: ((r.withOperators table).units ts).1 := by
  induction ts generalizing r front with
  | nil => exact before
  | cons t ts ih =>
    obtain ⟨first, others⟩ := List.forall_mem_cons.mp read
    cases front with
    | nil => exact List.nil_prefix
    | cons u front =>
      rw [units_cons, List.cons_prefix_cons] at before
      obtain ⟨rfl, before⟩ := before
      obtain ⟨here, none⟩ := List.forall_mem_cons.mp none
      obtain ⟨kept, idle⟩ := operators_unit (first.imp_left fun read => read.fits.form) idle
      have same := (unit_withOperators operators within first).resolve_right
        fun ⟨text, span, gained, late, _⟩ => here ⟨text, span, gained, late⟩
      rw [units_cons, same]
      exact List.cons_prefix_cons.mpr ⟨rfl, ih (kept.trans operators) idle others before none⟩

/-- Where every operator function is backed, each unit is judged again by itself. -/
theorem units_echo (idle : r.Idle now now r) (within : now.Within table)
    (read : ∀ t ∈ ts, t.IsReadWith now ∨ t.kind = .error) :
    List.Forall₂ (Program.Echoes now table) (r.units ts).1 ((r.withOperators table).units ts).1 := by
  induction ts generalizing r with
  | nil => exact .nil
  | cons t ts ih =>
    obtain ⟨first, others⟩ := List.forall_mem_cons.mp read
    have next := idle_unit idle (first.imp_left SyntaxTree.IsReadWith.fits)
    rw [units_cons, units_cons]
    rcases unit_withOperators idle.operators within first with same | ⟨text, span, gained, late, lacks⟩
    · rw [same]
      exact .cons .same (ih next others)
    · rw [lacks idle.env.isCoherent, late]
      exact .cons (.late span gained) (ih next others)

end Resolver

end OpenExpr
