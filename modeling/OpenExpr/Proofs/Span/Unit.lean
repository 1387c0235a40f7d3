import OpenExpr.Proofs.Growth.Unit
import OpenExpr.Proofs.Span.Resolution

namespace OpenExpr

variable {size : Nat} {span : Span}

/-- Every node of the prototype nests. -/
def Prototype.Nests (size : Nat) (p : Prototype) : Prop :=
  ∀ depth, ∀ n ∈ p.outline depth, n.2.Nests size

/-- Every node of the unit nests. -/
def Program.Nests (size : Nat) (u : Program) : Prop :=
  ∀ depth, ∀ n ∈ u.outline depth, n.2.Nests size

/-- The nodes of the unit nest, or it is an error inside the source. -/
inductive Program.Fits (size : Nat) : Program → Prop
  | nested {u} : u.Nests size → Fits size u
  | error {d} : d.span.Within 0 size → Fits size (.error d)

theorem Prototype.nests_of_row {p : Prototype} (inside : p.span.Within 0 size)
    (row : Span.Row p.span.lower p.span.upper (p.parameters.map Parameter.span)) : p.Nests size := by
  intro depth n member
  rw [outline, List.mem_cons, List.mem_map] at member
  rcases member with rfl | ⟨q, given, rfl⟩
  · refine Node.nests_of_span rfl inside trivial ?_
    rw [Node.written, Node.children, List.map_map]
    · exact row
    · simp
  · have here := (row.within _ (List.mem_map_of_mem given)).mono (Nat.zero_le _) inside.upper
    exact Node.nests_of_span rfl here trivial here.forward

/-- The function of a bare expression takes as much of the source as its body. -/
theorem Program.nests_definition {signature : Prototype} {body : Expr} {locals : List Local}
    {isAnonymous : Bool} (inside : span.Within 0 size) (declared : ∀ l ∈ locals, l.span.Within 0 size)
    (header : signature.span.Within span.lower span.upper) (nests : signature.Nests size)
    (fits : body.Fits size span)
    (apart : isAnonymous = false → signature.span.upper ≤ body.span.lower) :
    (definition { signature, body, locals, isAnonymous, span }).Nests size := by
  intro depth n member
  rw [outline, List.mem_cons, List.mem_append] at member
  rcases member with rfl | below | below
  · refine ⟨List.forall_mem_cons.mpr ⟨inside, List.forall_mem_map.mpr declared⟩, trivial, ?_, ?_⟩
    · exact List.forall_mem_cons.mpr ⟨header, List.forall_mem_singleton.mpr fits.span⟩
    · exact fun written => .cons (List.forall_mem_singleton.mpr (apart written)) (.cons (by simp) .nil)
  · exact nests _ n below
  · exact fits.nests _ n below

namespace ResolveUnit

open SyntaxTree

variable {α : Type} {P : α → Prop} {r : Resolver}

/-- The outcome of a part of a statement, with a body that stands in the source. -/
abbrev Rests (size : Nat) (P : α → Prop) : EStateM.Result Diagnostic Resolver α → Prop :=
  Placed size (fun r : Resolver => r.body.LiesInSource size) P

theorem rests_inBody {part : Environment → Resolve α} (places : Resolve.Places size P (part r.env))
    (inside : r.body.LiesInSource size) : Rests size P (inBody part r) := by
  have outcome := places r.body inside
  unfold inBody
  cases run : part r.env r.body with
  | ok a b => rwa [run] at outcome
  | error d b => rwa [run] at outcome

theorem rests_onFailure {undo : Environment → Environment} {part : ResolveUnit α}
    (h : Rests size P (part r)) : Rests size P (onFailure undo part r) := by
  unfold onFailure
  cases run : part r with
  | ok a r' => rwa [run] at h
  | error d r' => rwa [run] at h

theorem map_span_parameters (t : SyntaxTree) (isExternal : Bool) :
    (prototypeOf t isExternal).parameters.map Parameter.span = t.children.map SyntaxTree.span := by
  calc (prototypeOf t isExternal).parameters.map Parameter.span
      = (t.children.zipIdx.map Prod.fst).map SyntaxTree.span := by
        rw [prototypeOf, List.map_map, List.map_map]
        rfl
    _ = t.children.map SyntaxTree.span := by rw [List.zipIdx_map_fst]

/-- A header becomes a prototype in its place, with the parameters where their names are. -/
theorem nests_prototypeOf {t : SyntaxTree} (lies : t.LiesIn 0 size) (isExternal : Bool) :
    (prototypeOf t isExternal).Nests size := by
  refine Prototype.nests_of_row lies.span ?_
  rw [map_span_parameters]
  exact lies.parts.row

theorem rests_declare {t : SyntaxTree} (form : isPrototype t = true) (lies : t.LiesIn 0 size)
    (isExternal : Bool) (inside : r.body.LiesInSource size) :
    Rests size (fun p => p = prototypeOf t isExternal) (declare t isExternal r) := by
  by_cases accepted : r.env.AcceptsHeader t
  · rw [declare_ok form accepted]
    exact ⟨inside, rfl⟩
  · rw [declare_error form accepted]
    exact ⟨inside, lies.span⟩

/-- Statements begin with a body that has no local variables. -/
theorem rests_beginFunction (inside : r.body.LiesInSource size) :
    Rests size (fun _ => True) (beginFunction r) :=
  ⟨⟨inside.scopes, List.forall_mem_nil _⟩, trivial⟩

/-- A function is made of its body and of what the body declared. -/
theorem rests_define {signature : Prototype} {body : Expr} {isAnonymous : Bool}
    (inside : r.body.LiesInSource size) (place : span.Within 0 size)
    (header : signature.span.Within span.lower span.upper) (nests : signature.Nests size)
    (fits : body.Fits size span)
    (apart : isAnonymous = false → signature.span.upper ≤ body.span.lower) :
    Rests size (Program.Nests size) ((do
      let d : FunctionDefinition := { signature, body, locals := ← takeLocals, isAnonymous, span }
      changeEnv fun env => env.define d
      return .definition d : ResolveUnit Program) r) :=
  ⟨⟨inside.scopes, List.forall_mem_nil _⟩,
    Program.nests_definition place inside.locals header nests fits apart⟩

theorem rests_functionDefinition {text : String} {header body : SyntaxTree}
    (isHeader : isPrototype header = true) (form : body.IsExpr)
    (lies : LiesIn 0 size { kind := .functionDefinition, span, text, children := [header, body] })
    (inside : r.body.LiesInSource size) :
    Rests size (Program.Nests size)
      (functionDefinition { kind := .functionDefinition, span, text, children := [header, body] } r) := by
  have atHeader := lies.child List.mem_cons_self
  have atBody := lies.child (List.mem_cons_of_mem _ List.mem_cons_self)
  obtain ⟨first, second⟩ := List.forall_mem_cons.mp lies.parts.row.within
  have apart := (List.pairwise_cons.mp lies.parts.row.pairwise).1 body.span (List.mem_singleton_self _)
  unfold functionDefinition
  refine (rests_beginFunction inside).bind fun _ r inside _ => ?_
  dsimp only
  rw [get_bind]
  refine placed_ite ⟨inside, atHeader.span⟩ ?_
  refine (rests_declare isHeader atHeader false inside).bind fun signature r inside same => ?_
  subst same
  have given : ∀ p ∈ (prototypeOf header false).parameters, p.span.Within 0 size := by
    have row := atHeader.parts.row
    rw [← map_span_parameters header false] at row
    exact fun p member => (row.within _ (List.mem_map_of_mem member)).mono (Nat.zero_le _) atHeader.span.upper
  have places : Resolve.Places size (fun e => e.Fits size body.span) (Resolve.inScope do
      Resolve.bindParameters (prototypeOf header false).parameters
      Resolve.expr r.env body) :=
    Resolve.places_inScope ((Resolve.places_bindParameters given).bind fun _ _ =>
      Resolve.isPlaced_expr form atBody)
  refine (rests_onFailure (rests_inBody places inside)).bind fun e r inside fits => ?_
  have within := second body.span (List.mem_singleton_self _)
  exact rests_define inside lies.span first (nests_prototypeOf atHeader false) (fits.mono within)
    fun _ => apart.trans fits.span.lower

theorem rests_topLevelExpression {text : String} {body : SyntaxTree} (form : body.IsExpr)
    (lies : LiesIn 0 size { kind := .topLevelExpression, span, text, children := [body] })
    (inside : r.body.LiesInSource size) :
    Rests size (Program.Nests size)
      (topLevelExpression { kind := .topLevelExpression, span, text, children := [body] } r) := by
  have within := lies.parts.row.within body.span (List.mem_singleton_self _)
  unfold topLevelExpression
  refine (rests_beginFunction inside).bind fun _ r inside _ => ?_
  rw [get_bind]
  refine Placed.bind (p := changeEnv _) (P := fun _ => True) ⟨inside, trivial⟩ fun _ r inside _ => ?_
  have places : Resolve.IsPlaced r.env size body := Resolve.isPlaced_expr form
  refine (rests_inBody (places (lies.child List.mem_cons_self)) inside).bind fun e r inside fits => ?_
  refine rests_define inside lies.span lies.span.self ?_ (fits.mono within) nofun
  exact Prototype.nests_of_row lies.span lies.span.forward

/-- A statement in the source becomes a unit whose nodes nest, or fails in the source. -/
theorem rests_statement {t : SyntaxTree} (form : t.IsUnit) (lies : t.LiesIn 0 size)
    (inside : r.body.LiesInSource size) : Rests size (Program.Nests size) (statement t r) := by
  cases form with
  | definition isHeader isExpr => exact rests_functionDefinition isHeader isExpr lies inside
  | declaration isHeader =>
    have atHeader := lies.child List.mem_cons_self
    refine (rests_declare isHeader atHeader true inside).bind fun p r inside same => ⟨inside, ?_⟩
    subst same
    exact nests_prototypeOf atHeader true
  | bare isExpr => exact rests_topLevelExpression isExpr lies inside

end ResolveUnit

namespace Resolver

variable {r : Resolver} {ts : List SyntaxTree}

theorem fits_unit {t : SyntaxTree} (form : t.IsUnit ∨ t.kind = .error) (lies : t.LiesIn 0 size)
    (inside : r.body.LiesInSource size) :
    (r.unit t).1.Fits size ∧ (r.unit t).2.body.LiesInSource size := by
  rcases form with form | error
  · have outcome := ResolveUnit.rests_statement form lies inside
    unfold unit
    cases run : ResolveUnit.statement t r with
    | ok u r' =>
      rw [run] at outcome
      exact ⟨.nested outcome.2, outcome.1⟩
    | error d r' =>
      rw [run] at outcome
      exact ⟨.error outcome.2, outcome.1⟩
  · rw [unit_of_error error]
    exact ⟨.error lies.span, inside⟩

theorem fits_units (forms : ∀ t ∈ ts, t.IsUnit ∨ t.kind = .error) (lie : ∀ t ∈ ts, t.LiesIn 0 size)
    (inside : r.body.LiesInSource size) : ∀ u ∈ (r.units ts).1, u.Fits size := by
  induction ts generalizing r with
  | nil => simp [units]
  | cons t ts ih =>
    obtain ⟨form, forms⟩ := List.forall_mem_cons.mp forms
    obtain ⟨lies, lie⟩ := List.forall_mem_cons.mp lie
    obtain ⟨fits, inside⟩ := fits_unit form lies inside
    rw [units_cons]
    exact List.forall_mem_cons.mpr ⟨fits, ih forms lie inside⟩

end Resolver

end OpenExpr
