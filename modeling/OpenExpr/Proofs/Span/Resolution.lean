import OpenExpr.Proofs.RelatedLists
import OpenExpr.Proofs.Scoping.Resolution
import OpenExpr.Proofs.Span.Nesting

namespace OpenExpr

namespace Scopes

variable {α : Type} {P : α → Prop} {s : Scopes α}

/-- Whatever the scopes hold satisfies `P`. -/
def All (P : α → Prop) (s : Scopes α) : Prop :=
  ∀ scope ∈ s.innermost :: s.enclosing, ∀ (name : String) (a : α), scope[name]? = some a → P a

theorem all_empty : All P {} := by
  simp [All]

theorem All.push (all : s.All P) : s.push.All P := by
  refine List.forall_mem_cons.mpr ⟨?_, all⟩
  simp [Scopes.push]

theorem All.pop (all : s.All P) : s.pop.All P := by
  obtain ⟨innermost, enclosing⟩ := s
  cases enclosing with
  | nil => exact all
  | cons scope enclosing => exact (List.forall_mem_cons.mp all).2

theorem All.insert (all : s.All P) (name : String) {a : α} (good : P a) : (s.insert name a).All P := by
  obtain ⟨first, others⟩ := List.forall_mem_cons.mp all
  refine List.forall_mem_cons.mpr ⟨fun key b found => ?_, others⟩
  simp only [Scopes.insert, Std.ExtTreeMap.getElem?_insert] at found
  split at found
  · cases found
    exact good
  · exact first key b found

theorem All.find? (all : s.All P) {name : String} {a : α} (found : s.find? name = some a) : P a := by
  obtain ⟨scope, member, here⟩ := List.exists_of_findSome?_eq_some found
  exact all scope member name a here

end Scopes

/-- All that has been resolved of the body stands in the source. -/
structure Body.LiesInSource (size : Nat) (b : Body) : Prop where
  scopes : b.scopes.All fun binding => binding.span.Within 0 size
  locals : ∀ l ∈ b.locals, l.span.Within 0 size

theorem Body.liesInSource_empty (size : Nat) : Body.LiesInSource size {} :=
  ⟨Scopes.all_empty, by simp⟩

variable {σ α β : Type} {size : Nat} {I : σ → Prop} {P : α → Prop} {Q : β → Prop}

/-- What is resolved satisfies `P`, or the diagnostic stands in the source. The state that is
left satisfies `I`. -/
def Placed (size : Nat) (I : σ → Prop) (P : α → Prop) : EStateM.Result Diagnostic σ α → Prop
  | .ok a s => I s ∧ P a
  | .error d s => I s ∧ d.span.Within 0 size

theorem Placed.bind {p : EStateM Diagnostic σ α} {f : α → EStateM Diagnostic σ β} {s : σ}
    (first : Placed size I P (p s)) (next : ∀ a s', I s' → P a → Placed size I Q (f a s')) :
    Placed size I Q ((p >>= f) s) := by
  change Placed size I Q (EStateM.bind p f s)
  unfold EStateM.bind
  cases run : p s with
  | ok a s' =>
    rw [run] at first
    exact next a s' first.1 first.2
  | error d s' =>
    rw [run] at first
    exact first

theorem Placed.imp {P' : α → Prop} {r : EStateM.Result Diagnostic σ α} (h : Placed size I P r)
    (weaker : ∀ a, P a → P' a) : Placed size I P' r := by
  cases r with
  | ok a s => exact ⟨h.1, weaker a h.2⟩
  | error d s => exact h

theorem placed_ite {p q : EStateM Diagnostic σ α} {c : Prop} [Decidable c] {s : σ}
    (yes : Placed size I P (p s)) (no : Placed size I P (q s)) :
    Placed size I P ((if c then p else q) s) := by
  split
  · exact yes
  · exact no

namespace Resolve

open SyntaxTree

/-- The part is resolved so in every body that stands in the source. -/
def Places (size : Nat) (P : α → Prop) (p : Resolve α) : Prop :=
  ∀ b : Body, b.LiesInSource size → Placed size (Body.LiesInSource size) P (p b)

theorem Places.bind {p : Resolve α} {f : α → Resolve β} (h : Places size P p)
    (next : ∀ a, P a → Places size Q (f a)) : Places size Q (p >>= f) :=
  fun b inside => (h b inside).bind fun a b' inside' good => next a good b' inside'

theorem Places.imp {P' : α → Prop} {p : Resolve α} (h : Places size P p) (weaker : ∀ a, P a → P' a) :
    Places size P' p :=
  fun b inside => (h b inside).imp weaker

theorem places_pure {a : α} (good : P a) : Places size P (pure a) :=
  fun _ inside => ⟨inside, good⟩

theorem places_throw {d : Diagnostic} (inside : d.span.Within 0 size) : Places size P (throw d) :=
  fun _ body => ⟨body, inside⟩

theorem places_inScope {p : Resolve α} (h : Places size P p) : Places size P (inScope p) := by
  intro b inside
  have inner := h { b with scopes := b.scopes.push } ⟨inside.scopes.push, inside.locals⟩
  unfold inScope
  cases run : p { b with scopes := b.scopes.push } with
  | ok a b' =>
    rw [run] at inner
    exact ⟨⟨inner.1.scopes.pop, inner.1.locals⟩, inner.2⟩
  | error d b' =>
    rw [run] at inner
    exact ⟨⟨inner.1.scopes.pop, inner.1.locals⟩, inner.2⟩

theorem places_declare {l : Local} (inside : l.span.Within 0 size) :
    Places size (fun _ => True) (declare l) := by
  refine fun b body => ⟨⟨body.scopes.insert l.name inside, ?_⟩, trivial⟩
  exact List.forall_mem_append.mpr ⟨body.locals, List.forall_mem_singleton.mpr inside⟩

theorem places_declareResult {span : Span} (inside : span.Within 0 size) :
    Places size (fun l => l.span = span) (declareResult span) := by
  refine fun b body => ⟨⟨body.scopes.insert _ inside, ?_⟩, rfl⟩
  exact List.forall_mem_append.mpr ⟨body.locals, List.forall_mem_singleton.mpr inside⟩

/-- The parameters of a function become known where its header has them. -/
theorem places_bindParameters {ps : List Parameter} (inside : ∀ p ∈ ps, p.span.Within 0 size) :
    Places size (fun _ => True) (bindParameters ps) := by
  have each (scopes : Scopes Binding) (all : scopes.All fun binding => binding.span.Within 0 size) :
      (ps.foldl (fun s p => s.insert p.name (.given p)) scopes).All
        fun binding => binding.span.Within 0 size := by
    induction ps generalizing scopes with
    | nil => exact all
    | cons p ps ih =>
      obtain ⟨first, others⟩ := List.forall_mem_cons.mp inside
      exact ih others _ (all.insert p.name first)
  exact fun b body => ⟨⟨each b.scopes body.scopes, body.locals⟩, trivial⟩

variable {env : Environment} {span : Span} {hi : Nat}

theorem places_reference (name : String) (inside : span.Within 0 size) :
    Places size (fun e => e.Fits size span) (reference name span) := by
  intro b body
  unfold reference
  rw [get_bind]
  cases found : b.scopes.find? name with
  | some binding => exact ⟨body, inside.self, Expr.nests_reference inside (body.scopes.find? found)⟩
  | none => exact ⟨body, inside⟩

theorem places_unaryCallee (symbol : Char) (text : String) (inside : span.Within 0 size) :
    Places size (fun _ => True) (unaryCallee env symbol text span) := by
  unfold unaryCallee
  split
  · exact places_throw inside
  dsimp only
  split
  · exact places_throw inside
  · exact places_pure trivial

/-- An operator reaches from the start of the operand on its left to the end of the other. -/
theorem places_apply {left right : Expr} {operator : Token} (sign : operator.span.Within 0 size)
    (inside : (left.span.upTo right.span).Within 0 size) (first : left.Nests size)
    (second : right.Nests size)
    (row : Span.Row left.span.lower right.span.upper [left.span, right.span]) :
    Places size (fun e => e.span = left.span.upTo right.span ∧ e.Nests size)
      (apply env left operator right) := by
  unfold apply
  dsimp only
  split
  · exact places_pure ⟨rfl, Expr.nests_builtIn inside _ row first second⟩
  split
  · exact places_throw sign
  split
  · exact places_throw sign
  · exact places_pure ⟨rfl, Expr.nests_call inside _ row (by simpa using ⟨first, second⟩)⟩

/-- What a tree of the source is resolved as fits into the span of the tree. -/
def IsPlaced (env : Environment) (size : Nat) (t : SyntaxTree) : Prop :=
  t.LiesIn 0 size → Places size (fun e => e.Fits size t.span) (expr env t)

theorem places_exprs {ts : List SyntaxTree} (each : ∀ t ∈ ts, IsPlaced env size t)
    (lie : ∀ t ∈ ts, t.LiesIn 0 size) :
    Places size (List.Forall₂ (fun t e => e.Fits size t.span) ts) (exprs env ts) := by
  induction ts with
  | nil => exact places_pure .nil
  | cons t ts ih =>
    obtain ⟨first, others⟩ := List.forall_mem_cons.mp each
    obtain ⟨here, lie⟩ := List.forall_mem_cons.mp lie
    exact (first here).bind fun e fits => (ih others lie).bind fun es rest =>
      places_pure (.cons fits rest)

/-- Each operator takes what stands on its left as its operand, so that what has been
resolved grows to the right and never past the tail that is left. -/
theorem places_applyAll {operators : List (Token × SyntaxTree)}
    (each : ∀ o ∈ operators, IsPlaced env size o.2) (laid : ∀ o ∈ operators, o.2.IsLaid)
    (bound : hi ≤ size) {left : Expr} (forward : left.span.lower ≤ left.span.upper)
    (nests : left.Nests size) (row : Span.Row left.span.upper hi (tailSpans operators)) :
    Places size (fun e => e.span.Within left.span.lower hi ∧ e.Nests size)
      (applyAll env left operators) := by
  induction operators generalizing left with
  | nil => exact places_pure ⟨⟨Nat.le_refl _, forward, row⟩, nests⟩
  | cons o rest ih =>
    obtain ⟨operator, operand⟩ := o
    obtain ⟨here, each⟩ := List.forall_mem_cons.mp each
    obtain ⟨laidHere, laid⟩ := List.forall_mem_cons.mp laid
    obtain ⟨behind, sign, behind', operand', tail⟩ := row
    have end' := tail.le
    refine (here ⟨⟨Nat.zero_le _, operand', by omega⟩, laidHere⟩).bind fun right fits => ?_
    obtain ⟨lower, rightForward, upper⟩ := fits.span
    have apart : left.span.upper ≤ right.span.lower := by omega
    have inside : (left.span.upTo right.span).Within 0 size :=
      ⟨Nat.zero_le _, forward.trans (apart.trans rightForward), by
        change right.span.upper ≤ size
        omega⟩
    refine (places_apply ⟨Nat.zero_le _, sign, by omega⟩ inside nests fits.nests
      ⟨Nat.le_refl _, forward, apart, rightForward, Nat.le_refl _⟩).bind fun whole made => ?_
    obtain ⟨same, nests⟩ := made
    have forward' : whole.span.lower ≤ whole.span.upper := same ▸ inside.forward
    have tail' : Span.Row whole.span.upper hi (tailSpans rest) :=
      same ▸ tail.mono upper (Nat.le_refl _)
    have grown := ih each laid forward' nests tail'
    rwa [same] at grown


theorem places_initializer {t : SyntaxTree} (form : t.IsInitializer)
    (each : ∀ v ∈ t.children, IsPlaced env size v) (lies : t.LiesIn 0 size) :
    Places size (fun l => l.Fits size t.span) (initializer env t) := by
  obtain ⟨kind, span, text, children, operators⟩ := t
  obtain ⟨rfl, rfl, _⟩ := form
  have inside := lies.span
  unfold initializer
  rw [if_pos rfl]
  cases children with
  | nil =>
    refine places_pure ⟨inside.self, Local.nests_initialized inside ⟨inside.self, ?_⟩⟩
    exact Expr.nests_constant inside 0
  | cons value rest =>
    refine (each value List.mem_cons_self (lies.child List.mem_cons_self)).bind fun e fits => ?_
    refine places_pure ⟨inside.self, Local.nests_initialized inside (fits.mono ?_)⟩
    exact lies.parts.row.within _ List.mem_cons_self

theorem places_bindings {initializers : List SyntaxTree} {body : SyntaxTree}
    (forms : ∀ i ∈ initializers, i.IsInitializer)
    (values : ∀ i ∈ initializers, ∀ v ∈ i.children, IsPlaced env size v)
    (last : IsPlaced env size body) (lie : ∀ t ∈ initializers ++ [body], t.LiesIn 0 size)
    (missing : Diagnostic) :
    Places size (fun parts => List.Forall₂ (fun t l => l.Fits size t.span) initializers parts.1 ∧
      parts.2.Fits size body.span) (bindings env missing (initializers ++ [body])) := by
  induction initializers with
  | nil => exact (last (lie body List.mem_cons_self)).bind fun e fits => places_pure ⟨.nil, fits⟩
  | cons first rest ih =>
    obtain ⟨form, forms⟩ := List.forall_mem_cons.mp forms
    obtain ⟨value, values⟩ := List.forall_mem_cons.mp values
    obtain ⟨here, lie⟩ := List.forall_mem_cons.mp lie
    have others := ih forms values lie
    rw [List.cons_append]
    obtain ⟨next, more, same⟩ := List.exists_cons_of_ne_nil (List.append_ne_nil_of_right_ne_nil rest
      (List.cons_ne_nil body []))
    rw [same] at others ⊢
    unfold bindings
    refine (places_initializer form value here).bind fun l fits =>
      (places_declare ((fits.span.mono (Nat.zero_le _) here.span.upper))).bind fun _ _ =>
      others.bind fun parts rest => ?_
    exact places_pure ⟨.cons fits rest.1, rest.2⟩

theorem isInitializer_of_value {text : String} {value : SyntaxTree} :
    IsInitializer { kind := .initializer, span, text, children := [value] } :=
  ⟨rfl, rfl, Nat.le_refl 1⟩

/-- A loop variable stands in front of the parts of the loop that see it. -/
theorem places_loop {counter : SyntaxTree} (form : counter.IsInitializer)
    (value : ∀ v ∈ counter.children, IsPlaced env size v) (lies : counter.LiesIn 0 size)
    {part : Local → Resolve Expr}
    (inside : ∀ l : Local, l.Fits size counter.span → Places size (fun e => e.Fits size span) (part l)) :
    Places size (fun e => e.Fits size span)
      (initializer env counter >>= fun l => inScope (declare l >>= fun _ => part l)) :=
  (places_initializer form value lies).bind fun l fits => places_inScope <|
    (places_declare (fits.span.mono (Nat.zero_le _) lies.span.upper)).bind fun _ _ => inside l fits

/-- The spans of what the children of a node are resolved as are a row like those of the
children. -/
theorem row_of_fits {lo hi : Nat} {ts : List SyntaxTree} {es : List Expr} (parts : AllLieIn lo hi ts)
    (each : List.Forall₂ (fun t e => e.Fits size t.span) ts es) :
    Span.Row lo hi (es.map Expr.span) :=
  parts.row.shrink (List.forall₂_map_left_iff.mpr (List.forall₂_map_right_iff.mpr
    (each.imp fun _ _ fits => fits.span)))

/-- Whatever a source can write as an expression is resolved in its place. -/
theorem isPlaced_expr {t : SyntaxTree} (form : t.IsExpr) : IsPlaced env size t := by
  induction form with
  | chain _ _ _ first rest =>
    intro lies
    cases lies.laid with
    | node row _ laid =>
      obtain ⟨lower, _, tail⟩ := row
      unfold expr
      refine (first (lies.child List.mem_cons_self)).bind fun left fits => ?_
      refine (places_applyAll rest laid lies.span.upper fits.span.forward fits.nests
        (tail.mono fits.span.upper (Nat.le_refl _))).imp fun e grown => ?_
      exact ⟨grown.1.mono (lower.trans fits.span.lower) (Nat.le_refl _), grown.2⟩
  | paren _ inner =>
    intro lies
    unfold expr
    refine (inner (lies.child List.mem_cons_self)).imp fun e fits => fits.mono ?_
    exact lies.parts.row.within _ List.mem_cons_self
  | @constant span text numeral =>
    intro lies
    obtain ⟨value, numeral⟩ := Option.isSome_iff_exists.mp numeral
    unfold expr
    dsimp only
    rw [numeral]
    exact places_pure ⟨lies.span.self, Expr.nests_constant lies.span value⟩
  | reference =>
    intro lies
    unfold expr
    exact places_reference _ lies.span
  | @call _ text _ _ each =>
    intro lies
    unfold expr
    dsimp only
    cases env.callee? text with
    | none => exact places_throw lies.span
    | some callee =>
      refine (places_exprs each fun _ => lies.child).bind fun arguments fit => ?_
      exact places_pure ⟨lies.span.self, Expr.nests_call lies.span callee (row_of_fits lies.parts fit)
        (forall_of_forall₂ fit fun _ _ fits => fits.nests)⟩
  | prefixed _ _ operand =>
    intro lies
    unfold expr
    refine (places_unaryCallee _ _ lies.span).bind fun callee _ =>
      (operand (lies.child List.mem_cons_self)).bind fun e fits => ?_
    refine places_pure ⟨lies.span.self, Expr.nests_call lies.span callee ?_ (by simpa using fits.nests)⟩
    exact row_of_fits lies.parts (.cons fits .nil)
  | conditional _ _ _ first second third =>
    intro lies
    unfold expr
    refine (first (lies.child (by simp))).bind fun _ fits =>
      (second (lies.child (by simp))).bind fun _ fits' =>
      (third (lies.child (by simp))).bind fun _ fits'' =>
      (places_declareResult lies.span).bind fun l same => ?_
    refine places_pure ⟨lies.span.self, Expr.nests_conditional lies.span same ?_ fits.nests fits'.nests
      fits''.nests⟩
    exact row_of_fits lies.parts (.cons fits (.cons fits' (.cons fits'' .nil)))
  | loop _ _ _ value condition body =>
    intro lies
    unfold expr
    refine places_loop isInitializer_of_value (by simpa using value) (lies.child List.mem_cons_self)
      fun l fits => (condition (lies.child (by simp))).bind fun _ fits' =>
      (body (lies.child (by simp))).bind fun _ fits'' => ?_
    have missing : (Expr.constant 1 .null).Nests size :=
      Expr.nests_constant ⟨Nat.le_refl _, Nat.le_refl _, Nat.zero_le _⟩ 1
    refine places_pure ⟨lies.span.self, Expr.nests_forLoop lies.span (fun _ => rfl) ?_ fits.nests
      fits'.nests missing fits''.nests⟩
    rw [if_pos (show (Expr.constant 1 .null).span = .null from rfl)]
    exact lies.parts.row.shrink (.cons fits.span (.cons fits'.span (.cons fits''.span .nil)))
  | @loopStep _ _ _ _ _ _ tree _ _ _ _ _ value condition step body =>
    intro lies
    unfold expr
    refine places_loop isInitializer_of_value (by simpa using value) (lies.child List.mem_cons_self)
      fun l fits => (condition (lies.child (by simp))).bind fun _ fits' =>
      (step (lies.child (by simp))).bind fun e fits'' =>
      (body (lies.child (by simp))).bind fun _ last => ?_
    -- a step that was written stands behind the keyword of its loop
    have written : e.span ≠ .null := by
      intro null
      have behind := (lies.behind.row.within tree.span (by simp)).lower.trans fits''.span.lower
      rw [null] at behind
      exact Nat.not_succ_le_zero _ behind
    refine places_pure ⟨lies.span.self, Expr.nests_forLoop lies.span (absurd · written) ?_ fits.nests
      fits'.nests fits''.nests last.nests⟩
    rw [if_neg written]
    exact lies.parts.row.shrink
      (.cons fits.span (.cons fits'.span (.cons fits''.span (.cons last.span .nil))))
  | varIn forms _ _ values body =>
    intro lies
    unfold expr
    refine (places_inScope (places_bindings forms values body (fun _ => lies.child) _)).bind
      fun parts fit => ?_
    refine places_pure ⟨lies.span.self, Expr.nests_varIn lies.span ?_
      (forall_of_forall₂ fit.1 fun _ _ fits => fits.nests) fit.2.nests⟩
    have row := lies.parts.row
    rw [List.map_append] at row
    refine row.shrink (List.rel_append ?_ (.cons fit.2.span .nil))
    exact List.forall₂_map_left_iff.mpr (List.forall₂_map_right_iff.mpr
      (fit.1.imp fun _ _ fits => fits.span))

end Resolve

end OpenExpr
