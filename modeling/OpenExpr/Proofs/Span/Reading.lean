import OpenExpr.Proofs.Parse.Statement
import OpenExpr.Proofs.Span.Row

namespace OpenExpr

namespace TokenStream

/-- The byte at which the next token starts. -/
def next (s : TokenStream) : Nat :=
  s.current.span.lower

/-- The byte up to which tokens were read. -/
def back (s : TokenStream) : Nat :=
  match s.readTo with
  | none => 0
  | some p => p.offset.toNat

/-- What is left to read stands behind what was read, token behind token, up to the end of a
source. Only the end takes no bytes. -/
structure InOrder (size : Nat) (s : TokenStream) : Prop where
  row : Span.Row s.back size ((s.pending ++ [s.finish]).map Token.span)
  solid : ∀ t ∈ s.pending, t.span.lower < t.span.upper

/-- The stream `s'` is left behind when `s` is read: it is not before `s`, and what was read
stands behind the start of `s`. -/
structure Reaches (size : Nat) (s s' : TokenStream) : Prop where
  ordered : s'.InOrder size
  next : s.next ≤ s'.next
  back : s.back ≤ s'.back
  moved : s'.readTo = s.readTo ∨ s.next ≤ s'.back

variable {size : Nat} {s s' s'' : TokenStream}

theorem back_of_readTo_eq (same : s'.readTo = s.readTo) : s'.back = s.back := by
  simp only [back, same]

theorem InOrder.current (ordered : s.InOrder size) : s.current.span.Within s.back size := by
  refine ordered.row.within _ (List.mem_map_of_mem ?_)
  unfold TokenStream.current
  split <;> simp [*]

theorem InOrder.gap (ordered : s.InOrder size) : s.back ≤ s.next :=
  ordered.current.lower

theorem InOrder.next_le (ordered : s.InOrder size) : s.next ≤ size :=
  ordered.current.lower_le

theorem InOrder.back_le (ordered : s.InOrder size) : s.back ≤ size :=
  ordered.row.le

theorem Reaches.gap (r : s.Reaches size s') : s.back ≤ s'.next :=
  r.back.trans r.ordered.gap

theorem Reaches.refl (ordered : s.InOrder size) : s.Reaches size s :=
  ⟨ordered, Nat.le_refl _, Nat.le_refl _, .inl rfl⟩

theorem Reaches.trans (r : s.Reaches size s') (r' : s'.Reaches size s'') : s.Reaches size s'' where
  ordered := r'.ordered
  next := r.next.trans r'.next
  back := r.back.trans r'.back
  moved := by
    rcases r'.moved with same | moved
    · rw [same, back_of_readTo_eq same]
      exact r.moved
    · exact .inr (r.next.trans moved)

/-- Taking a token is reading it. -/
theorem InOrder.advance (ordered : s.InOrder size) : s.Reaches size s.advance := by
  cases pending : s.pending with
  | nil =>
    rw [advance_of_end pending]
    exact .refl ordered
  | cons t rest =>
    have current := current_of_pending pending
    have back : s.advance.back = t.span.upper := by
      simp [TokenStream.back, TokenStream.advance, pending, Span.upper]
    have finish : s.advance.finish = s.finish := Parse.finish_advance s
    have row := ordered.row
    rw [pending] at row
    obtain ⟨behind, forward, others⟩ := row
    have ordered' : s.advance.InOrder size := by
      refine ⟨?_, fun u member => ordered.solid u ?_⟩
      · rw [pending_advance_of_pending pending, back, finish]
        exact others
      · rw [pending_advance_of_pending pending] at member
        exact pending ▸ List.mem_cons_of_mem t member
    have next : s.next ≤ s.advance.back := by
      rw [back, TokenStream.next, current]
      exact forward
    exact ⟨ordered', next.trans ordered'.gap, ordered.gap.trans next, .inr next⟩

theorem upper_current_of_token (some : s.current.kind ≠ .endOfInput) :
    s.current.span.upper = s.advance.back := by
  cases pending : s.pending with
  | nil => exact absurd (current_kind_of_end pending) some
  | cons t rest =>
    simp [current_of_pending pending, TokenStream.back, TokenStream.advance, pending, Span.upper]

/-- A token other than the end takes at least one byte. -/
theorem InOrder.next_lt (ordered : s.InOrder size) (some : s.current.kind ≠ .endOfInput) :
    s.next < s.advance.back := by
  rw [← upper_current_of_token some]
  refine ordered.solid s.current ?_
  cases pending : s.pending with
  | nil => exact absurd (current_kind_of_end pending) some
  | cons t rest => exact current_of_pending pending ▸ List.mem_cons_self

/-- A span up to the last token that was read ends there. -/
theorem upper_spanFrom {start : Position} (behind : start.offset.toNat ≤ s.back) :
    (s.spanFrom start).upper = s.back := by
  unfold spanFrom Span.upper back at *
  cases read : s.readTo with
  | none => simpa [read] using behind
  | some p => rfl

theorem reaches_synchronize (ordered : s.InOrder size) : s.Reaches size s.synchronize := by
  have each (tokens : List Token) : ∀ s : TokenStream, s.InOrder size →
      s.Reaches size (synchronize.go s tokens) := by
    induction tokens with
    | nil => exact fun _ => .refl
    | cons t rest ih =>
      intro s ordered
      have first := ordered.advance
      unfold synchronize.go
      split
      · exact first
      · exact first.trans (ih s.advance first.ordered)
  exact each s.pending s ordered

theorem unexpected_le (ordered : s.InOrder size) : s.unexpected.position.offset.toNat ≤ size := by
  have bound := ordered.next_le
  unfold next TokenStream.current at bound
  unfold unexpected
  split <;> simp_all [Span.lower]

theorem unexpectedDetailed_le (ordered : s.InOrder size) (expected : String) :
    (s.unexpectedDetailed expected).position.offset.toNat ≤ size := by
  cases pending : s.pending with
  | nil =>
    rw [unexpectedDetailed, pending]
    exact unexpected_le ordered
  | cons t rest =>
    have bound := ordered.next_le
    rw [next, current_of_pending pending] at bound
    rw [unexpectedDetailed, pending]
    exact bound

end TokenStream

namespace Parse

open SyntaxTree

variable {α β : Type} {size : Nat} {P : TokenStream → α → Prop} {Q : TokenStream → β → Prop}
  {s s' : TokenStream}

/-- What was read from `s` on satisfies `P` together with the stream that is left, or
something inside the source could not be read. -/
def Lands (size : Nat) (s : TokenStream) (P : TokenStream → α → Prop) :
    EStateM.Result InputError TokenStream α → Prop
  | .ok a s' => s.Reaches size s' ∧ P s' a
  | .error e s' => s.Reaches size s' ∧ e.position.offset.toNat ≤ size

/-- The tree that is read lies between the next token and the last one that was read. -/
abbrev Laid (size : Nat) (s : TokenStream) :
    EStateM.Result InputError TokenStream SyntaxTree → Prop :=
  Lands size s fun s' t => t.LiesIn s.next s'.back

/-- So it does wherever the reading starts. -/
def Lays (size : Nat) (p : Parse SyntaxTree) : Prop :=
  ∀ s, s.InOrder size → Laid size s (p s)

theorem Lands.after {r : EStateM.Result InputError TokenStream α} (first : s.Reaches size s')
    (rest : Lands size s' P r) : Lands size s P r := by
  cases r with
  | ok a s'' => exact ⟨first.trans rest.1, rest.2⟩
  | error e s'' => exact ⟨first.trans rest.1, rest.2⟩

theorem Lands.bind {p : Parse α} {f : α → Parse β} (first : Lands size s P (p s))
    (next : ∀ a s', s.Reaches size s' → P s' a → Lands size s' Q (f a s')) :
    Lands size s Q ((p >>= f) s) := by
  cases run : p s with
  | ok a s' =>
    rw [run] at first
    rw [bind_ok run]
    exact (next a s' first.1 first.2).after first.1
  | error e s' =>
    rw [run] at first
    rw [bind_error run]
    exact first

theorem Lands.imp {P' : TokenStream → α → Prop} {r : EStateM.Result InputError TokenStream α}
    (h : Lands size s P r) (weaker : ∀ a s', s.Reaches size s' → P s' a → P' s' a) :
    Lands size s P' r := by
  cases r with
  | ok a s' => exact ⟨h.1, weaker a s' h.1 h.2⟩
  | error e s' => exact h

theorem lands_ite {p q : Parse α} {c : Prop} [Decidable c] (yes : c → Lands size s P (p s))
    (no : ¬ c → Lands size s P (q s)) : Lands size s P ((if c then p else q) s) := by
  split
  · exact yes ‹_›
  · exact no ‹_›

theorem lands_current {f : Token → Parse β} (next : Lands size s Q (f s.current s)) :
    Lands size s Q ((current >>= f) s) :=
  next

theorem lands_remaining {f : Nat → Parse β} (next : Lands size s Q (f s.pending.length s)) :
    Lands size s Q ((remaining >>= f) s) :=
  next

theorem lands_position {f : Position → Parse β} (next : Lands size s Q (f s.current.span.start s)) :
    Lands size s Q ((position >>= f) s) :=
  next

theorem lands_pure {a : α} (ordered : s.InOrder size) (good : P s a) :
    Lands size s P ((pure a : Parse α) s) :=
  ⟨.refl ordered, good⟩

theorem lands_throw {e : InputError} (ordered : s.InOrder size)
    (inside : e.position.offset.toNat ≤ size) : Lands size s P ((throw e : Parse α) s) :=
  ⟨.refl ordered, inside⟩

theorem lands_unexpected (ordered : s.InOrder size) : Lands size s P ((unexpected : Parse α) s) :=
  ⟨.refl ordered, TokenStream.unexpected_le ordered⟩

theorem lands_unexpectedDetailed (ordered : s.InOrder size) (expected : String) :
    Lands size s P ((unexpectedDetailed expected : Parse α) s) :=
  ⟨.refl ordered, TokenStream.unexpectedDetailed_le ordered expected⟩

theorem lands_advance (ordered : s.InOrder size) :
    Lands size s (fun _ t => t = s.current) (advance s) :=
  ⟨ordered.advance, rfl⟩

/-- A token other than the end is behind the stream once it is taken. -/
theorem lands_token (ordered : s.InOrder size) (some : s.current.kind ≠ .endOfInput) :
    Lands size s (fun s' t => t.span.Within s.next s'.back) (advance s) :=
  ⟨ordered.advance, Nat.le_refl _, ordered.current.forward,
    Nat.le_of_eq (TokenStream.upper_current_of_token some)⟩

/-- A node that starts with a keyword has its parts behind it. -/
theorem lands_opening (ordered : s.InOrder size) (some : s.current.kind ≠ .endOfInput) :
    Lands size s (fun s' t => t = s.current ∧ s.next < s'.back) (advance s) :=
  ⟨ordered.advance, rfl, ordered.next_lt some⟩

theorem lands_expect {kind : Token.Kind} (ordered : s.InOrder size) (some : kind ≠ .endOfInput) :
    Lands size s (fun s' t => t.span.Within s.next s'.back) (expect kind s) :=
  lands_current (lands_ite (fun same => lands_token ordered (same ▸ some))
    fun _ => lands_unexpected ordered)

theorem lands_eat (ordered : s.InOrder size) (kind : Token.Kind) :
    Lands size s (fun _ _ => True) (eat kind s) :=
  lands_current (lands_ite (fun _ => ⟨ordered.advance, trivial⟩) fun _ => ⟨.refl ordered, trivial⟩)

theorem lands_requireLevel (ordered : s.InOrder size) (level required : Level) (feature : String) :
    Lands size s (fun s' _ => s' = s) (requireLevel level required feature s) := by
  rw [requireLevel_apply]
  split
  · exact ⟨.refl ordered, rfl⟩
  · exact ⟨.refl ordered, ordered.next_le⟩

/-- A node from a place on that is before its children ends with the last token. -/
theorem lands_node {kind : SyntaxTree.Kind} {start : Position} {text : String}
    {children : List SyntaxTree} (ordered : s.InOrder size)
    (inside : AllLieIn (start.offset.toNat + kind.lead) s.back children) :
    Lands size s (fun s' t => t.LiesIn start.offset.toNat s'.back)
      (node kind start text children s) := by
  have forward := (Nat.le_add_right _ _).trans inside.row.le
  have upper := TokenStream.upper_spanFrom forward
  refine ⟨.refl ordered, ⟨Nat.le_refl _, ?_, Nat.le_of_eq upper⟩, AllLieIn.isLaid ?_⟩
  · rw [upper]
    exact forward
  · rw [upper]
    exact inside

theorem lands_commaSeparated {item : Parse SyntaxTree} (each : Lays size item) (budget : Nat)
    (ordered : s.InOrder size) :
    Lands size s (fun s' ts => AllLieIn s.next s'.back ts) (commaSeparated item budget s) := by
  induction budget generalizing s with
  | zero => exact (each s ordered).bind fun t s₁ r₁ lies => lands_pure r₁.ordered lies.one
  | succ budget ih =>
    refine (each s ordered).bind fun t s₁ r₁ lies => (lands_eat r₁.ordered .comma).bind
      fun more s₂ r₂ _ => ?_
    cases more with
    | true => exact (ih r₂.ordered).bind fun ts s₃ r₃ rest =>
        lands_pure r₃.ordered (lies.cons r₂.gap rest)
    | false => exact lands_pure r₂.ordered (lies.one.mono (Nat.le_refl _) r₂.back)

end Parse

end OpenExpr
