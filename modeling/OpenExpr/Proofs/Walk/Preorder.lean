import Mathlib.Data.List.Forall2
import Mathlib.Data.List.Lex
import OpenExpr.Program.Node

namespace OpenExpr

namespace Node

/-- The node that is reached by going down to the child of each number in turn. -/
def at? (n : Node) : List Nat → Option Node
  | [] => some n
  | i :: path => n.children[i]?.bind fun child => child.at? path

/-- The node that is reached in this way from one of several nodes. -/
def among? (ns : List Node) : List Nat → Option Node
  | [] => none
  | i :: path => ns[i]?.bind fun n => n.at? path

/-- The paths lead to the nodes of the list one by one, and no others lead anywhere. Each
comes before those that go on from it or branch off to a later child. -/
structure Enumerates (find? : List Nat → Option Node) (paths : List (List Nat))
    (ns : List Node) : Prop where
  sorted : paths.Pairwise (· < ·)
  each : List.Forall₂ (fun path n => find? path = some n) paths ns
  all : ∀ path n, find? path = some n → path ∈ paths

/-- The list holds all that is reached from the node, in the order of the paths. -/
def HasPreorder (n : Node) (ns : List Node) : Prop :=
  ∃ paths, Enumerates n.at? paths ns

variable {n : Node} {ns ms cs : List Node} {paths paths' : List (List Nat)}
  {find? : List Nat → Option Node}

theorem Enumerates.found (each : Enumerates find? paths ns) {path : List Nat}
    (member : path ∈ paths) : ∃ n, find? path = some n := by
  have leads := each.each
  clear each
  induction leads with
  | nil => cases member
  | cons first _ ih =>
    rcases List.mem_cons.mp member with rfl | later
    · exact ⟨_, first⟩
    · exact ih later

/-- The path from a node onwards in a list, with one more node in front of it. -/
def shift (path : List Nat) : List Nat :=
  path.modifyHead (· + 1)

theorem shift_lt_shift {p q : List Nat} (less : p < q) : shift p < shift q := by
  cases less with
  | nil => exact .nil
  | cons below => exact .cons below
  | rel below => exact .rel (Nat.succ_lt_succ below)

theorem enumerates_nil : Enumerates (among? []) [] [] where
  sorted := .nil
  each := .nil
  all path n found := by cases path <;> cases found

/-- What is reached from the first of several nodes comes before all that is reached from
the others. -/
theorem Enumerates.cons (first : Enumerates n.at? paths ns) (others : Enumerates (among? cs) paths' ms) :
    Enumerates (among? (n :: cs)) (paths.map (0 :: ·) ++ paths'.map shift) (ns ++ ms) where
  sorted := by
    have front := first.sorted.map (0 :: ·) fun _ _ => List.Lex.cons
    refine List.pairwise_append.mpr ⟨front, others.sorted.map shift fun _ _ => shift_lt_shift, ?_⟩
    intro p inFront q inBack
    obtain ⟨p, _, rfl⟩ := List.mem_map.mp inFront
    obtain ⟨q, member, rfl⟩ := List.mem_map.mp inBack
    -- nothing is reached among several nodes without choosing one of them
    obtain ⟨m, found⟩ := others.found member
    cases q with
    | nil => cases found
    | cons i q => exact .rel (Nat.succ_pos i)
  each := by
    refine List.rel_append (List.forall₂_map_left_iff.mpr first.each) ?_
    refine List.forall₂_map_left_iff.mpr (others.each.imp fun path m found => ?_)
    cases path with
    | nil => cases found
    | cons i path => exact found
  all path m found := by
    rw [List.mem_append, List.mem_map, List.mem_map]
    match path, found with
    | 0 :: path, found => exact .inl ⟨path, first.all path m found, rfl⟩
    | (i + 1) :: path, found => exact .inr ⟨i :: path, others.all (i :: path) m found, rfl⟩

/-- The list holds what is reached from the nodes, one after the other. -/
def HavePreorder (cs ns : List Node) : Prop :=
  ∃ parts, List.Forall₂ HasPreorder cs parts ∧ parts.flatten = ns

theorem havePreorder_nil : HavePreorder [] [] :=
  ⟨[], .nil, rfl⟩

theorem HasPreorder.one (first : n.HasPreorder ns) : HavePreorder [n] ns :=
  ⟨[ns], .cons first .nil, by simp⟩

theorem HavePreorder.append {cs cs' : List Node} (first : HavePreorder cs ns)
    (others : HavePreorder cs' ms) : HavePreorder (cs ++ cs') (ns ++ ms) := by
  obtain ⟨parts, each, rfl⟩ := first
  obtain ⟨parts', each', rfl⟩ := others
  exact ⟨parts ++ parts', List.rel_append each each', List.flatten_append⟩

theorem HavePreorder.exists_enumerates (each : HavePreorder cs ns) :
    ∃ paths, Enumerates (among? cs) paths ns := by
  obtain ⟨parts, each, rfl⟩ := each
  induction each with
  | nil => exact ⟨[], enumerates_nil⟩
  | cons first _ ih =>
    obtain ⟨paths, first⟩ := first
    obtain ⟨paths', others⟩ := ih
    exact ⟨_, first.cons others⟩

/-- A node comes before all below it, and these come child by child. -/
theorem HasPreorder.node (each : HavePreorder n.children ns) : n.HasPreorder (n :: ns) := by
  obtain ⟨paths, below⟩ := each.exists_enumerates
  refine ⟨[] :: paths, ?_, .cons rfl ?_, ?_⟩
  · refine List.pairwise_cons.mpr ⟨fun path member => ?_, below.sorted⟩
    obtain ⟨m, found⟩ := below.found member
    cases path with
    | nil => cases found
    | cons i path => exact .nil
  · refine below.each.imp fun path m found => ?_
    cases path with
    | nil => cases found
    | cons i path => exact found
  · intro path m found
    cases path with
    | nil => exact List.mem_cons_self
    | cons i path => exact List.mem_cons_of_mem _ (below.all (i :: path) m found)

end Node

/-- The nodes of an outline without their depths. -/
def nodesOf (outline : List (Nat × Node)) : List Node :=
  outline.map Prod.snd

theorem nodesOf_append (ns ms : List (Nat × Node)) : nodesOf (ns ++ ms) = nodesOf ns ++ nodesOf ms :=
  List.map_append

open Node

/-! An outline is the nodes of a program in preorder. -/

mutual

theorem Expr.hasPreorder_outline (depth : Nat) (e : Expr) :
    (Node.expr e).HasPreorder (nodesOf (e.outline depth)) := by
  cases e with
  | constant | reference | error => exact .node havePreorder_nil
  | call callee arguments span => exact .node (Expr.havePreorder_outlineAll (depth + 1) arguments)
  | builtIn op left right span =>
    have below := (left.hasPreorder_outline (depth + 1)).one.append
      (right.hasPreorder_outline (depth + 1)).one
    rw [← nodesOf_append] at below
    exact .node below
  | conditional condition thenBranch elseBranch result span =>
    have below := ((condition.hasPreorder_outline (depth + 1)).one.append
      (thenBranch.hasPreorder_outline (depth + 1)).one).append
      (elseBranch.hasPreorder_outline (depth + 1)).one
    rw [← nodesOf_append, ← nodesOf_append] at below
    exact .node below
  | forLoop counter condition step body span =>
    have below := (((counter.hasPreorder_outline (depth + 1)).one.append
      (condition.hasPreorder_outline (depth + 1)).one).append
      (step.hasPreorder_outline (depth + 1)).one).append (body.hasPreorder_outline (depth + 1)).one
    rw [← nodesOf_append, ← nodesOf_append, ← nodesOf_append] at below
    exact .node below
  | varIn locals body span =>
    have below := (Local.havePreorder_outlineAll (depth + 1) locals).append
      (body.hasPreorder_outline (depth + 1)).one
    rw [← nodesOf_append] at below
    exact .node below

theorem Expr.havePreorder_outlineAll (depth : Nat) (es : List Expr) :
    HavePreorder (es.map Node.expr) (nodesOf (Expr.outlineAll depth es)) := by
  cases es with
  | nil => exact havePreorder_nil
  | cons e es =>
    rw [Expr.outlineAll, nodesOf_append]
    exact (e.hasPreorder_outline depth).one.append (Expr.havePreorder_outlineAll depth es)

theorem Local.hasPreorder_outline (depth : Nat) (l : Local) :
    (Node.localVariable l).HasPreorder (nodesOf (l.outline depth)) := by
  cases l with
  | initialized declared value => exact .node (value.hasPreorder_outline (depth + 1)).one
  | slot declared => exact .node havePreorder_nil

theorem Local.havePreorder_outlineAll (depth : Nat) (ls : List Local) :
    HavePreorder (ls.map Node.localVariable) (nodesOf (Local.outlineAll depth ls)) := by
  cases ls with
  | nil => exact havePreorder_nil
  | cons l ls =>
    rw [Local.outlineAll, nodesOf_append]
    exact (l.hasPreorder_outline depth).one.append (Local.havePreorder_outlineAll depth ls)

end

theorem Prototype.hasPreorder_outline (depth : Nat) (p : Prototype) :
    (Node.prototype p).HasPreorder (nodesOf (p.outline depth)) := by
  have parameters (qs : List Parameter) : HavePreorder (qs.map Node.parameter)
      (nodesOf (qs.map fun q => (depth + 1, .parameter q))) := by
    induction qs with
    | nil => exact havePreorder_nil
    | cons q qs ih =>
      have first : (Node.parameter q).HasPreorder [.parameter q] := .node havePreorder_nil
      exact first.one.append ih
  exact .node (parameters p.parameters)

mutual

theorem Program.hasPreorder_outline (depth : Nat) (u : Program) :
    u.node.HasPreorder (nodesOf (u.outline depth)) := by
  cases u with
  | root units span => exact .node (Program.havePreorder_outlineAll (depth + 1) units)
  | error d => exact .node havePreorder_nil
  | prototype p => exact p.hasPreorder_outline depth
  | definition d =>
    have below := (d.signature.hasPreorder_outline (depth + 1)).one.append
      (d.body.hasPreorder_outline (depth + 1)).one
    rw [← nodesOf_append] at below
    exact .node below
  | expression e => exact e.hasPreorder_outline depth

theorem Program.havePreorder_outlineAll (depth : Nat) (us : List Program) :
    HavePreorder (us.map Program.node) (nodesOf (Program.outlineAll depth us)) := by
  cases us with
  | nil => exact havePreorder_nil
  | cons u us =>
    rw [Program.outlineAll, nodesOf_append]
    exact (u.hasPreorder_outline depth).one.append (Program.havePreorder_outlineAll depth us)

end

end OpenExpr
