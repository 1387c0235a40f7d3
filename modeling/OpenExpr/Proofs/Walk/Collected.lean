import OpenExpr.Proofs.Meaning.Failures
import OpenExpr.Proofs.RelatedLists
import OpenExpr.Proofs.Walk.Preorder

namespace OpenExpr

/-- A walk adds the diagnostics to those that were recorded before. -/
def Collects (walk : StateM (List Diagnostic) Unit) (ds : List Diagnostic) : Prop :=
  ∀ found, walk.run found = ((), found ++ ds)

namespace Collects

variable {walk walk' : StateM (List Diagnostic) Unit} {ds ds' : List Diagnostic}

theorem nothing : Collects (pure ()) [] := fun found => by
  rw [List.append_nil]
  rfl

theorem one (d : Diagnostic) : Collects (modify (· ++ [d])) [d] := fun _ => rfl

theorem andThen (first : Collects walk ds) (next : Collects walk' ds') :
    Collects (do walk; walk') (ds ++ ds') := fun found => by
  rw [StateT.run_bind, first found, ← List.append_assoc]
  exact next (found ++ ds)

theorem onward (last : Collects walk ds) : Collects (do walk; pure ()) ds := by
  have closed := last.andThen nothing
  rwa [List.append_nil] at closed

end Collects

open Node

/-! The walk finds what stands in the node and below it. -/

mutual

theorem Expr.collects (e : Expr) : Collects (collector.expr e) e.errors := by
  cases e with
  | constant | reference => exact .nothing
  | error d => exact .one d
  | call callee arguments span => exact Expr.collects_all arguments
  | builtIn op left right span => exact left.collects.andThen right.collects.onward
  | conditional condition thenBranch elseBranch result span =>
    rw [Expr.errors, List.append_assoc]
    exact condition.collects.andThen (thenBranch.collects.andThen elseBranch.collects.onward)
  | forLoop counter condition step body span =>
    rw [Expr.errors, List.append_assoc, List.append_assoc]
    exact counter.collects.andThen
      (condition.collects.andThen (step.collects.andThen body.collects.onward))
  | varIn locals body span => exact (Local.collects_all locals).andThen body.collects.onward

theorem Expr.collects_all (es : List Expr) : Collects (collector.exprs () es) (Expr.errorsAll es) := by
  cases es with
  | nil => exact .nothing
  | cons e es => exact e.collects.andThen (Expr.collects_all es)

theorem Local.collects (l : Local) : Collects (collector.localVariable l) l.errors := by
  cases l with
  | initialized declared value => exact value.collects.onward
  | slot declared => exact .nothing

theorem Local.collects_all (ls : List Local) :
    Collects (collector.localVariables () ls) (Local.errorsAll ls) := by
  cases ls with
  | nil => exact .nothing
  | cons l ls => exact l.collects.andThen (Local.collects_all ls)

end

theorem Prototype.collects (p : Prototype) : Collects (collector.prototype p) [] := by
  have parameters (qs : List Parameter) : Collects
      (qs.foldlM (fun a q => return collector.join a (← collector.visit (.parameter q) (pure ()))) ())
      [] := by
    induction qs with
    | nil => exact .nothing
    | cons q qs ih => exact Collects.nothing.andThen ih
  exact parameters p.parameters

mutual

theorem Program.collects (u : Program) : Collects (collector.program u) u.errors := by
  cases u with
  | root units span => exact Program.collects_all units
  | error d => exact .one d
  | prototype p => exact p.collects
  | definition d => exact d.signature.collects.andThen d.body.collects.onward
  | expression e => exact e.collects

theorem Program.collects_all (us : List Program) :
    Collects (collector.programs () us) (Program.errorsAll us) := by
  cases us with
  | nil => exact .nothing
  | cons u us => exact u.collects.andThen (Program.collects_all us)

end

namespace Node

/-- The place of an error is found by the path to it. -/
def IsErrorAt (find? : List Nat → Option Node) (path : List Nat) (d : Diagnostic) : Prop :=
  find? path = some (.expr (.error d))

theorem error?_eq_some {n : Node} {d : Diagnostic} (failed : n.error? = some d) :
    n = .expr (.error d) := by
  unfold error? at failed
  split at failed
  · cases failed
    rfl
  · cases failed

theorem errorsAmong_eq (outline : List (Nat × Node)) :
    errorsAmong outline = (nodesOf outline).filterMap error? := by
  rw [nodesOf, List.filterMap_map]
  rfl

variable {find? : List Nat → Option Node} {paths : List (List Nat)} {ns : List Node}

/-- Some of the paths lead to the errors, in their order, and no other of them to any. -/
theorem exists_paths_to_errors (each : List.Forall₂ (fun path n => find? path = some n) paths ns) :
    ∃ toErrors : List (List Nat), toErrors.Sublist paths ∧
      List.Forall₂ (IsErrorAt find?) toErrors (ns.filterMap error?) ∧
      ∀ path ∈ paths, ∀ d, IsErrorAt find? path d → path ∈ toErrors := by
  induction each with
  | nil => exact ⟨[], .slnil, .nil, nofun⟩
  | @cons path n paths ns leads _ ih =>
    obtain ⟨toErrors, among, each, all⟩ := ih
    cases failed : n.error? with
    | none =>
      refine ⟨toErrors, among.cons path, ?_, fun p member d found => ?_⟩
      · rwa [List.filterMap_cons_none failed]
      · rcases List.mem_cons.mp member with rfl | later
        · cases Option.some.inj (leads.symm.trans found)
          cases failed
        · exact all p later d found
    | some d =>
      cases error?_eq_some failed
      refine ⟨path :: toErrors, among.cons_cons path, .cons leads each, fun p member d found => ?_⟩
      rcases List.mem_cons.mp member with rfl | later
      · exact List.mem_cons_self
      · exact List.mem_cons_of_mem _ (all p later d found)

end Node

/-- The walk over any program records the diagnostics that stand in it, and these are exactly
those at its error nodes: the paths down to these nodes, each number that of a child, come one
after the other in the order in which a node stands before those below it and a child with all
that is below it before the next. No error is left out, and none is recorded twice. -/
theorem errors_in_preorder (u : Program) :
    ((collector.program u).run []).2 = u.errors ∧
      ∃ paths : List (List Nat), paths.Pairwise (· < ·) ∧
        List.Forall₂ (fun path d => u.node.at? path = some (.expr (.error d))) paths u.errors ∧
        ∀ path, path ∈ paths ↔ ∃ d, u.node.at? path = some (.expr (.error d)) := by
  refine ⟨congrArg Prod.snd (u.collects []), ?_⟩
  obtain ⟨paths, preorder⟩ := u.hasPreorder_outline 0
  obtain ⟨toErrors, among, each, all⟩ := exists_paths_to_errors preorder.each
  rw [← errorsAmong_eq, u.errorsAmong_outline] at each
  refine ⟨toErrors, preorder.sorted.sublist among, each, fun path => ⟨fun member => ?_, ?_⟩⟩
  · obtain ⟨d, _, leads⟩ := exists_of_forall₂ each.flip member
    exact ⟨d, leads⟩
  · rintro ⟨d, found⟩
    exact all path (preorder.all path _ found) d found

end OpenExpr
