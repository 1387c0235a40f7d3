import OpenExpr.Proofs.Scoping.Statement

namespace OpenExpr

theorem SyntaxTree.IsRead.units {mode : ParseMode} {t : SyntaxTree} (read : t.IsRead mode) :
    ∀ u ∈ t.children, u.IsUnit ∨ u.kind = .error := by
  cases read with
  | single form => simpa using .inl form
  | source forms => exact forms

/-- A statement of a text is resolved in any environment, after the statements before it.
Unless its header is refused, this succeeds exactly if all that its body uses is there.
Each reference then goes to the first binding of its name in scope where it stands. -/
theorem unit_resolved_lexically {s : Session} {mode : ParseMode} {text : String} {tree : SyntaxTree}
    (read : (s.syntaxTree mode text).1 = .ok tree) (env : Environment)
    {before after : List SyntaxTree} {t : SyntaxTree} (here : tree.children = before ++ t :: after)
    (readable : t.kind ≠ .error) {r : Resolver} (reached : (Resolver.units { env } before).2 = r)
    (accepted : r.env.Accepts t) :
    ((r.unit t).1.isError = false ↔ AllKnown (r.env.inside t) t.bodyUses) ∧
      ((r.unit t).1.isError = false →
        (r.unit t).1.references = t.bodyUses.filterMap Use.target?) := by
  have units := (Session.isRead_of_syntaxTree read).units
  rw [here] at units
  have form : t.IsUnit :=
    (units t (List.mem_append_right before List.mem_cons_self)).resolve_right readable
  have idle : r.body.scopes.Sees [] := by
    rw [← reached]
    exact Resolver.sees_units (fun u member => units u (List.mem_append_left _ member))
      Scopes.sees_empty
  have resolved := Resolver.resolved_unit form idle
  exact ⟨resolved.known.trans (and_iff_right accepted), resolved.references⟩

/-- The units of a source in a new session, and none if it cannot be read. -/
def unitsOf (text : String) : List SyntaxTree :=
  match ((Session.new {}).syntaxTree .fullSource text).1 with
  | .ok tree => tree.children
  | .error _ => []

theorem exists_syntaxTree_of_unitsOf {text : String} (some : unitsOf text ≠ []) :
    ∃ tree, ((Session.new {}).syntaxTree .fullSource text).1 = .ok tree ∧
      tree.children = unitsOf text := by
  unfold unitsOf at some ⊢
  cases read : ((Session.new {}).syntaxTree .fullSource text).1 with
  | ok tree => exact ⟨tree, rfl, rfl⟩
  | error e => simp [read] at some

theorem Environment.accepts_of_isEmpty {env : Environment} (permissive : env.options.isStrict = false)
    (empty : env.declarations.isEmpty = true) (t : SyntaxTree) : env.Accepts t := by
  have header (h : SyntaxTree) : env.AcceptsHeader h := by
    intro previous known
    simp [Std.ExtTreeMap.isEmpty_iff.mp empty] at known
  unfold Accepts
  split
  · exact ⟨by simp [permissive], header _⟩
  · exact header _
  · trivial

/-- A conditional, and then a definition in which a name is bound four times. -/
def shadowingSource : String :=
  "if 1 then 2 else 3; def f(x x) var x = x, y = x in for x = y, x < y in x + f(x, y)"

/-- Of two parameters of one name the last is seen, until a local variable hides it, and
that a loop variable. The variable for the result of the conditional is not seen. -/
theorem shadowed_names_resolved : ∃ a t r, unitsOf shadowingSource = [a, t] ∧
    (Resolver.units { env := {} } [a]).2 = r ∧ t.kind ≠ .error ∧ r.env.Accepts t ∧
    ((r.unit t).1.isError = false ↔ AllKnown (r.env.inside t) t.bodyUses) ∧
    ((r.unit t).1.isError = false →
      (r.unit t).1.references = t.bodyUses.filterMap Use.target?) ∧
    (r.unit t).1.references.map (fun b => b.1.span.start.offset) =
      [28, 35, 42, 55, 42, 55, 55, 42] := by
  have kinds : (unitsOf shadowingSource).map SyntaxTree.kind =
      [.topLevelExpression, .functionDefinition] := by decide +kernel
  have fresh : (Resolver.units { env := {} }
      ((unitsOf shadowingSource).take 1)).2.env.declarations.isEmpty = true := by decide +kernel
  have permissive : (Resolver.units { env := {} }
      ((unitsOf shadowingSource).take 1)).2.env.options.isStrict = false := by decide +kernel
  have places : (Resolver.units { env := {} } (unitsOf shadowingSource)).1.map
      (fun u => u.references.map fun b => b.1.span.start.offset) =
      [[], [28, 35, 42, 55, 42, 55, 55, 42]] := by decide +kernel
  have some : unitsOf shadowingSource ≠ [] := by
    intro none
    simp [none] at kinds
  obtain ⟨tree, read, children⟩ := exists_syntaxTree_of_unitsOf some
  obtain ⟨a, t, units⟩ : ∃ a t, unitsOf shadowingSource = [a, t] :=
    List.length_eq_two.mp (by simpa using congrArg List.length kinds)
  rw [units] at kinds fresh permissive places children
  have here : tree.children = [a] ++ t :: [] := children
  have readable : t.kind ≠ .error := by simp_all
  have accepted := Environment.accepts_of_isEmpty permissive fresh t
  have lexical := unit_resolved_lexically read {} here readable rfl accepted
  refine ⟨a, t, _, units, rfl, readable, accepted, lexical.1, lexical.2, ?_⟩
  exact (List.cons.inj (List.cons.inj places).2).1

end OpenExpr
