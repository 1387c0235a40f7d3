import OpenExpr.Proofs.Parse.Budget

namespace OpenExpr

namespace Parse

variable {α β : Type} {n : Nat} {L : α → List Token → List Token → Prop}

/-- Of at most `n` tokens, whatever `p` reads and leaves are related by `L`. -/
def Consumes (n : Nat) (p : Parse α) (L : α → List Token → List Token → Prop) : Prop :=
  ∀ s a s', s.pending.length ≤ n → p s = .ok a s' →
    ∃ w, s.pending = w ++ s'.pending ∧ L a w s'.pending

/-- The same where the next token is known. -/
def ConsumesFrom (n : Nat) (P : Token → Prop) (p : Parse α)
    (L : α → List Token → List Token → Prop) : Prop :=
  ∀ s a s', s.pending.length ≤ n → P s.current → p s = .ok a s' →
    ∃ w, s.pending = w ++ s'.pending ∧ L a w s'.pending

/-- One thing in front of another. -/
def FollowedBy (L : α → List Token → List Token → Prop)
    (M : α → β → List Token → List Token → Prop) (b : β) (w rest : List Token) : Prop :=
  ∃ a u v, w = u ++ v ∧ L a u (v ++ rest) ∧ M a b v rest

theorem Consumes.mono {p : Parse α} {m : Nat} (h : Consumes n p L) (bound : m ≤ n) : Consumes m p L :=
  fun s a s' small => h s a s' (Nat.le_trans small bound)

theorem Consumes.imp {p : Parse α} {M : α → List Token → List Token → Prop} (h : Consumes n p L)
    (sub : ∀ a w rest, L a w rest → M a w rest) : Consumes n p M := by
  intro s a s' small run
  obtain ⟨w, split, inL⟩ := h s a s' small run
  exact ⟨w, split, sub a w _ inL⟩

theorem Consumes.bind {p : Parse α} {f : α → Parse β} {M : α → β → List Token → List Token → Prop}
    (h : Consumes n p L) (next : ∀ a, Consumes n (f a) (M a)) :
    Consumes n (p >>= f) (FollowedBy L M) := by
  intro s b s'' small run
  obtain ⟨a, s', first, second⟩ := bind_eq_ok run
  obtain ⟨u, split, inL⟩ := h s a s' small first
  have shorter : s'.pending.length ≤ n := by
    rw [split, List.length_append] at small
    omega
  obtain ⟨v, split', inM⟩ := next a s' b s'' shorter second
  rw [split'] at inL
  exact ⟨u ++ v, by rw [split, split', List.append_assoc], a, u, v, rfl, inL, inM⟩

theorem Consumes.from {p : Parse α} (h : Consumes n p L) (P : Token → Prop) : ConsumesFrom n P p L :=
  fun s a s' small _ => h s a s' small

/-! Single steps. -/

theorem consumes_pure (a : α) : Consumes n (pure a) fun b w _ => b = a ∧ w = [] := by
  rintro s _ _ _ ⟨⟩
  exact ⟨[], rfl, rfl, rfl⟩

theorem consumes_unexpected : Consumes n unexpected L := by
  intro s a s' _ run
  cases run

theorem consumes_unexpectedDetailed_bind (expected : String) (f : β → Parse α) :
    Consumes n (unexpectedDetailed expected >>= f) L := by
  intro s a s' _ run
  cases run

theorem consumes_position {f : Position → Parse α} (next : ∀ p, Consumes n (f p) L) :
    Consumes n (position >>= f) L :=
  fun s => next s.current.span.start s

theorem consumes_remaining {f : Nat → Parse α} (next : ∀ budget, Consumes n (f budget) L) :
    Consumes n (remaining >>= f) L :=
  fun s => next s.pending.length s

theorem consumes_spanFrom {f : Span → Parse α} (start : Position)
    (next : ∀ span, Consumes n (f span) L) : Consumes n (spanFrom start >>= f) L :=
  fun s => next (s.spanFrom start) s

theorem consumes_node (kind : SyntaxTree.Kind) (start : Position) (text : String)
    (children : List SyntaxTree) : Consumes n (node kind start text children)
      fun t w _ => w = [] ∧ ∃ span, t = { kind, span, text, children } := by
  refine consumes_spanFrom start fun span => (consumes_pure _).imp ?_
  rintro _ _ _ ⟨rfl, rfl⟩
  exact ⟨rfl, span, rfl⟩

/-- The token that is read is the one that was known. -/
theorem consumesFrom_advance {P : Token → Prop} {f : Token → Parse α}
    {M : Token → α → List Token → List Token → Prop} (real : ∀ t, P t → t.kind ≠ .endOfInput)
    (next : ∀ t, P t → Consumes n (f t) (M t))
    (sub : ∀ t a w rest, P t → M t a w rest → L a (t :: w) rest) :
    ConsumesFrom (n + 1) P (advance >>= f) L := by
  intro s a s' small known run
  cases pending : s.pending with
  | nil => exact absurd (TokenStream.current_kind_of_end pending) (real _ known)
  | cons t rest =>
    have behind := TokenStream.pending_advance_of_pending pending
    rw [TokenStream.current_of_pending pending] at known
    rw [bind_ok (advance_apply s), TokenStream.current_of_pending pending] at run
    have shorter := length_pending_advance small
    obtain ⟨w, split, inM⟩ := next t known s.advance a s' shorter run
    exact ⟨t :: w, by rw [← behind, split, List.cons_append], sub t a w _ known inM⟩

theorem consumes_choice {P : Token → Prop} [DecidablePred P] {p q : Parse α}
    (yes : ConsumesFrom n P p L) (no : Consumes n q L) :
    Consumes n (current >>= fun t => if P t then p else q) L := by
  intro s a s' small run
  rw [bind_ok (current_apply s)] at run
  split at run
  · exact yes s a s' small ‹_› run
  · exact no s a s' small run

/-- Where the next token decides between what starts with it and something else. -/
theorem consumes_advance_or {P : Token → Prop} [DecidablePred P] {f : Token → Parse α} {q : Parse α}
    {M : Token → α → List Token → List Token → Prop} (real : ∀ t, P t → t.kind ≠ .endOfInput)
    (next : ∀ t, P t → Consumes n (f t) (M t)) (no : Consumes n q L)
    (sub : ∀ t a w rest, P t → M t a w rest → L a (t :: w) rest) :
    Consumes n (current >>= fun t => if P t then advance >>= f else q) L := by
  have yes := consumesFrom_advance real next sub
  exact consumes_choice (fun s a s' small => yes s a s' (Nat.le_succ_of_le small)) no

theorem consumes_expect (kind : Token.Kind) (real : kind ≠ .endOfInput) :
    Consumes n (expect kind) fun t w _ => w = [t] ∧ t.kind = kind :=
  consumes_advance_or (P := fun t => t.kind = kind) (f := pure) (fun t same => same ▸ real)
    (fun t _ => consumes_pure t) consumes_unexpected (by rintro t a w _ same ⟨rfl, rfl⟩; exact ⟨rfl, same⟩)

/-- Something after a token of the given kind, or else without it. -/
theorem consumes_eat {kind : Token.Kind} {f : Bool → Parse α} {M : α → List Token → List Token → Prop}
    (real : kind ≠ .endOfInput) (yes : Consumes n (f true) M) (no : Consumes n (f false) L)
    (sub : ∀ (t : Token) a w rest, t.kind = kind → M a w rest → L a (t :: w) rest) :
    Consumes n (eat kind >>= f) L := by
  rw [eat_bind]
  exact consumes_advance_or (fun t same => same ▸ real) (fun _ _ => yes) no sub

/-- Items with commas between them, each in front of all that follows it. -/
theorem consumes_commaSeparated {item : Parse SyntaxTree}
    {L : SyntaxTree → List Token → List Token → Prop}
    {M : List SyntaxTree → List Token → List Token → Prop} (each : Consumes n item L)
    (one : ∀ t w rest, L t w rest → M [t] w rest)
    (more : ∀ t w d ts v rest, L t w (d :: (v ++ rest)) → d.kind = .comma → M ts v rest →
      M (t :: ts) (w ++ d :: v) rest) (budget : Nat) :
    Consumes n (commaSeparated item budget) M := by
  induction budget with
  | zero =>
    refine (each.bind fun first => consumes_pure [first]).imp ?_
    rintro _ _ rest ⟨t, w, _, rfl, read, rfl, rfl⟩
    rw [List.append_nil]
    exact one t w rest read
  | succ budget ih =>
    have stop (first : SyntaxTree) : Consumes n (pure [first])
        fun ts w rest => ts = [first] ∧ w = [] ∨
          ∃ d v us, ts = first :: us ∧ w = d :: v ∧ d.kind = .comma ∧ M us v rest :=
      (consumes_pure [first]).imp fun _ _ _ => .inl
    refine (each.bind fun first => consumes_eat (by decide)
      (ih.bind fun others => consumes_pure (first :: others)) (stop first) ?_).imp ?_
    · rintro d _ _ rest comma ⟨us, v, _, rfl, read, rfl, rfl⟩
      rw [List.append_nil]
      exact .inr ⟨d, v, us, rfl, rfl, comma, read⟩
    · rintro _ _ rest ⟨t, w, _, rfl, read, ⟨rfl, rfl⟩ | ⟨d, v, us, rfl, rfl, comma, others⟩⟩
      · rw [List.append_nil]
        exact one t w rest read
      · exact more t w d us v rest read comma others

end Parse

end OpenExpr
