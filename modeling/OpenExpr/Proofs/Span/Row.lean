import Mathlib.Data.List.Forall2
import Mathlib.Order.Nat
import OpenExpr.SyntaxTree.Basic

namespace OpenExpr

namespace Span

/-- The byte at which a span starts. -/
def lower (s : Span) : Nat :=
  s.start.offset.toNat

/-- The byte in front of which a span ends. -/
def upper (s : Span) : Nat :=
  s.stop.offset.toNat

/-- The span does not run backwards and lies between two bytes. -/
structure Within (lo hi : Nat) (s : Span) : Prop where
  lower : lo ≤ s.lower
  forward : s.lower ≤ s.upper
  upper : s.upper ≤ hi

/-- The spans lie between two bytes, each of them behind the one before. -/
def Row (lo hi : Nat) : List Span → Prop
  | [] => lo ≤ hi
  | s :: rest => lo ≤ s.lower ∧ s.lower ≤ s.upper ∧ Row s.upper hi rest

variable {lo lo' mid hi hi' : Nat} {s : Span} {ss ts : List Span}

theorem Within.mono (h : s.Within lo hi) (left : lo' ≤ lo) (right : hi ≤ hi') : s.Within lo' hi' where
  lower := left.trans h.lower
  forward := h.forward
  upper := h.upper.trans right

theorem Within.lower_le (h : s.Within lo hi) : s.lower ≤ hi :=
  h.forward.trans h.upper

theorem Within.le (h : s.Within lo hi) : lo ≤ hi :=
  h.lower.trans h.lower_le

theorem Within.self (h : s.Within lo hi) : s.Within s.lower s.upper :=
  ⟨Nat.le_refl _, h.forward, Nat.le_refl _⟩

theorem Within.row (h : s.Within lo hi) : Row lo hi [s] :=
  ⟨h.lower, h.forward, h.upper⟩

theorem Row.le (row : Row lo hi ss) : lo ≤ hi := by
  induction ss generalizing lo with
  | nil => exact row
  | cons s ss ih =>
    obtain ⟨lower, forward, rest⟩ := row
    exact lower.trans (forward.trans (ih rest))

theorem Row.mono (row : Row lo hi ss) (left : lo' ≤ lo) (right : hi ≤ hi') : Row lo' hi' ss := by
  induction ss generalizing lo lo' with
  | nil => exact left.trans (row.trans right)
  | cons s ss ih =>
    obtain ⟨lower, forward, rest⟩ := row
    exact ⟨left.trans lower, forward, ih rest (Nat.le_refl _)⟩

theorem Row.append (first : Row lo mid ss) (rest : Row mid hi ts) : Row lo hi (ss ++ ts) := by
  induction ss generalizing lo with
  | nil => exact rest.mono first (Nat.le_refl _)
  | cons s ss ih =>
    obtain ⟨lower, forward, others⟩ := first
    exact ⟨lower, forward, ih others⟩

theorem Row.within (row : Row lo hi ss) : ∀ s ∈ ss, s.Within lo hi := by
  induction ss generalizing lo with
  | nil => simp
  | cons s ss ih =>
    obtain ⟨lower, forward, rest⟩ := row
    refine List.forall_mem_cons.mpr ⟨⟨lower, forward, rest.le⟩, fun t member => ?_⟩
    exact (ih rest t member).mono (lower.trans forward) (Nat.le_refl _)

theorem Row.pairwise (row : Row lo hi ss) : ss.Pairwise fun s t => s.upper ≤ t.lower := by
  induction ss generalizing lo with
  | nil => exact .nil
  | cons s ss ih =>
    obtain ⟨_, _, rest⟩ := row
    exact .cons (fun t member => (rest.within t member).lower) (ih rest)

theorem row_of_pairwise (le : lo ≤ hi) (within : ∀ s ∈ ss, s.Within lo hi)
    (ordered : ss.Pairwise fun s t => s.upper ≤ t.lower) : Row lo hi ss := by
  induction ss generalizing lo with
  | nil => exact le
  | cons s ss ih =>
    obtain ⟨first, others⟩ := List.forall_mem_cons.mp within
    obtain ⟨behind, ordered⟩ := List.pairwise_cons.mp ordered
    refine ⟨first.lower, first.forward, ih first.upper (fun t member => ?_) ordered⟩
    exact ⟨behind t member, (others t member).forward, (others t member).upper⟩

/-- Spans may be left out of a row. -/
theorem Row.sublist (row : Row lo hi ts) (sub : ss.Sublist ts) : Row lo hi ss := by
  induction sub generalizing lo with
  | slnil => exact row
  | cons t _ ih =>
    obtain ⟨lower, forward, rest⟩ := row
    exact (ih rest).mono (lower.trans forward) (Nat.le_refl _)
  | cons_cons t _ ih =>
    obtain ⟨lower, forward, rest⟩ := row
    exact ⟨lower, forward, ih rest⟩

/-- Each span of a row may shrink. -/
theorem Row.shrink (row : Row lo hi ss)
    (inner : List.Forall₂ (fun s t => t.Within s.lower s.upper) ss ts) : Row lo hi ts := by
  induction inner generalizing lo with
  | nil => exact row
  | cons within _ ih =>
    obtain ⟨lower, forward, rest⟩ := row
    exact ⟨lower.trans within.lower, within.forward, (ih rest).mono within.upper (Nat.le_refl _)⟩

end Span

namespace SyntaxTree

/-- The spans of operators and of their right operands. -/
def tailSpans (operators : List (Token × SyntaxTree)) : List Span :=
  operators.flatMap fun o => [o.1.span, o.2.span]

/-- The first byte of a loop belongs to its keyword and to nothing below it. -/
def Kind.lead : Kind → Nat
  | forLoop => 1
  | _ => 0

/-- Wherever in the tree, what stands below a node is a row inside the span of the node. -/
inductive IsLaid : SyntaxTree → Prop
  | node {kind span text children operators} :
      Span.Row (span.lower + kind.lead) span.upper
        (children.map SyntaxTree.span ++ tailSpans operators) →
      (∀ t ∈ children, IsLaid t) → (∀ o ∈ operators, IsLaid o.2) →
      IsLaid { kind, span, text, children, operators }

/-- The tree lies between two bytes. -/
structure LiesIn (lo hi : Nat) (t : SyntaxTree) : Prop where
  span : t.span.Within lo hi
  laid : t.IsLaid

/-- The trees lie between two bytes, one behind the other. -/
structure AllLieIn (lo hi : Nat) (ts : List SyntaxTree) : Prop where
  row : Span.Row lo hi (ts.map SyntaxTree.span)
  laid : ∀ t ∈ ts, t.IsLaid

/-- So do the operators with their right operands. -/
structure TailLiesIn (lo hi : Nat) (operators : List (Token × SyntaxTree)) : Prop where
  row : Span.Row lo hi (tailSpans operators)
  laid : ∀ o ∈ operators, o.2.IsLaid

variable {lo lo' mid mid' hi hi' : Nat} {t : SyntaxTree} {ts us : List SyntaxTree}

theorem LiesIn.mono (h : t.LiesIn lo hi) (left : lo' ≤ lo) (right : hi ≤ hi') : t.LiesIn lo' hi' :=
  ⟨h.span.mono left right, h.laid⟩

theorem AllLieIn.mono (h : AllLieIn lo hi ts) (left : lo' ≤ lo) (right : hi ≤ hi') :
    AllLieIn lo' hi' ts :=
  ⟨h.row.mono left right, h.laid⟩

theorem AllLieIn.nil (le : lo ≤ hi) : AllLieIn lo hi [] :=
  ⟨le, by simp⟩

theorem LiesIn.one (h : t.LiesIn lo hi) : AllLieIn lo hi [t] :=
  ⟨h.span.row, by simpa using h.laid⟩

theorem AllLieIn.append (first : AllLieIn lo mid ts) (between : mid ≤ mid')
    (rest : AllLieIn mid' hi us) : AllLieIn lo hi (ts ++ us) where
  row := by
    rw [List.map_append]
    exact first.row.append (rest.row.mono between (Nat.le_refl _))
  laid := List.forall_mem_append.mpr ⟨first.laid, rest.laid⟩

theorem LiesIn.cons (first : t.LiesIn lo mid) (between : mid ≤ mid') (rest : AllLieIn mid' hi ts) :
    AllLieIn lo hi (t :: ts) :=
  first.one.append between rest

theorem AllLieIn.liesIn (h : AllLieIn lo hi ts) (member : t ∈ ts) : t.LiesIn lo hi :=
  ⟨h.row.within _ (List.mem_map_of_mem member), h.laid t member⟩

theorem TailLiesIn.nil (le : lo ≤ hi) : TailLiesIn lo hi [] :=
  ⟨le, by simp⟩

theorem TailLiesIn.cons {operator : Token} {operators : List (Token × SyntaxTree)}
    (first : operator.span.Within lo mid) (between : mid ≤ mid') (operand : t.LiesIn mid' hi)
    (rest : TailLiesIn hi hi' operators) : TailLiesIn lo hi' ((operator, t) :: operators) where
  row := first.row.append ((operand.span.row.append rest.row).mono between (Nat.le_refl _))
  laid := List.forall_mem_cons.mpr ⟨operand.laid, rest.laid⟩

variable {kind : Kind} {span : Span} {text : String}

theorem LiesIn.behind (h : t.LiesIn lo hi) :
    AllLieIn (t.span.lower + t.kind.lead) t.span.upper t.children := by
  cases h.laid with
  | node row laid _ => exact ⟨row.sublist (List.sublist_append_left _ _), laid⟩

theorem LiesIn.parts (h : t.LiesIn lo hi) : AllLieIn t.span.lower t.span.upper t.children :=
  h.behind.mono (Nat.le_add_right _ _) (Nat.le_refl _)

theorem LiesIn.child (h : t.LiesIn lo hi) {u : SyntaxTree} (member : u ∈ t.children) : u.LiesIn lo hi :=
  (h.parts.liesIn member).mono h.span.lower h.span.upper

/-- A node is laid out if its children are inside it. -/
theorem AllLieIn.isLaid (h : AllLieIn (span.lower + kind.lead) span.upper ts) :
    IsLaid { kind, span, text, children := ts } :=
  .node (by simpa [tailSpans] using h.row) h.laid (by simp)

theorem isLaid_leaf (forward : span.lower + kind.lead ≤ span.upper) : IsLaid { kind, span, text } :=
  (AllLieIn.nil forward).isLaid

/-- An operand with its operators makes an expression. -/
theorem LiesIn.isLaid_chain {operators : List (Token × SyntaxTree)}
    (operand : t.LiesIn (span.lower + kind.lead) mid) (tail : TailLiesIn mid span.upper operators) :
    IsLaid { kind, span, text, children := [t], operators } :=
  .node (operand.span.row.append tail.row) (by simpa using operand.laid) tail.laid

end SyntaxTree

end OpenExpr
