import OpenExpr.Proofs.Parse.Steady

namespace OpenExpr

namespace TokenStream

/-- The stream behind its first `n` tokens. -/
def drop (s : TokenStream) (n : Nat) : TokenStream :=
  match n with
  | 0 => s
  | n + 1 => s.advance.drop n

theorem drop_zero (s : TokenStream) : s.drop 0 = s := rfl

theorem drop_one (s : TokenStream) : s.drop 1 = s.advance := rfl

theorem pending_drop (s : TokenStream) (n : Nat) : (s.drop n).pending = s.pending.drop n := by
  induction n generalizing s with
  | zero => rfl
  | succ n ih =>
    rw [drop, ih]
    cases pending : s.pending with
    | nil => rw [advance_of_end pending, pending, List.drop_nil, List.drop_nil]
    | cons t rest => rw [pending_advance_of_pending pending, List.drop_succ_cons]

theorem length_pending_drop (s : TokenStream) (n : Nat) :
    (s.drop n).pending.length = s.pending.length - n := by
  rw [pending_drop, List.length_drop]

theorem drop_drop (s : TokenStream) (m n : Nat) : (s.drop m).drop n = s.drop (m + n) := by
  induction m generalizing s with
  | zero => rw [drop_zero, Nat.zero_add]
  | succ m ih => rw [drop, ih, Nat.succ_add, drop]

variable {s : TokenStream}

theorem length_pending_pos (some : s.current.kind ≠ .endOfInput) : 0 < s.pending.length :=
  List.length_pos_iff.mpr fun atEnd => some (current_kind_of_end atEnd)

/-- In front of the end skipping to a semicolon takes a token, be it the semicolon. -/
theorem exists_synchronize (s : TokenStream) : ∃ n, s.synchronize = s.drop n ∧
    n ≤ s.pending.length ∧ (s.pending ≠ [] → 0 < n) := by
  have skips (w : List Token) : ∀ s : TokenStream, s.pending = w →
      ∃ n, synchronize.go s w = s.drop n ∧ n ≤ w.length ∧ (w ≠ [] → 0 < n) := by
    induction w with
    | nil => exact fun s _ => ⟨0, rfl, Nat.le_refl _, fun some => absurd rfl some⟩
    | cons t w ih =>
      intro s pending
      rw [synchronize.go]
      split
      · exact ⟨1, rfl, by simp, fun _ => Nat.one_pos⟩
      · obtain ⟨n, same, inside, _⟩ := ih s.advance (pending_advance_of_pending pending)
        exact ⟨n + 1, same, Nat.succ_le_succ inside, fun _ => Nat.succ_pos n⟩
  exact skips s.pending s rfl

theorem exists_synchronize_drop {n : Nat} (inside : n ≤ s.pending.length) : ∃ m,
    (s.drop n).synchronize = s.drop m ∧ n ≤ m ∧ m ≤ s.pending.length ∧
      (n < s.pending.length → n < m) := by
  obtain ⟨k, same, more, taken⟩ := (s.drop n).exists_synchronize
  have left := s.length_pending_drop n
  refine ⟨n + k, same.trans (s.drop_drop n k), Nat.le_add_right n k, by omega, fun before => ?_⟩
  have some := taken (List.length_pos_iff.mp (by omega))
  omega

end TokenStream

namespace Parse

variable {α β : Type} {least : Nat} {s : TokenStream}

/-- The stream is left behind some of its tokens, at least `least` of them if something was
read. It is never left behind its end. -/
def Moves (least : Nat) (s : TokenStream) : EStateM.Result InputError TokenStream α → Prop
  | .ok _ s' => ∃ n, least ≤ n ∧ n ≤ s.pending.length ∧ s' = s.drop n
  | .error _ s' => ∃ n ≤ s.pending.length, s' = s.drop n

/-- Wherever it starts, `p` only moves forward and takes at least `least` tokens for what it
reads. -/
def Advances (least : Nat) (p : Parse α) : Prop :=
  ∀ s, Moves least s (p s)

theorem Advances.weaken {p : Parse α} (h : Advances least p) : Advances 0 p := by
  intro s
  have moves := h s
  cases run : p s with
  | ok a s' =>
    rw [run] at moves
    obtain ⟨n, _, inside, same⟩ := moves
    exact ⟨n, Nat.zero_le n, inside, same⟩
  | error e s' =>
    rw [run] at moves
    exact moves

/-- What is read behind a token that was taken takes nothing back. -/
theorem Moves.bind {p : Parse α} {f : α → Parse β} (first : Moves least s (p s))
    (next : ∀ a, Advances 0 (f a)) : Moves least s ((p >>= f) s) := by
  cases run : p s with
  | error e s' =>
    rw [run] at first
    rw [bind_error run]
    exact first
  | ok a s' =>
    rw [run] at first
    obtain ⟨n, taken, inside, rfl⟩ := first
    have second := next a (s.drop n)
    rw [bind_ok run]
    cases run' : f a (s.drop n) with
    | ok b s'' =>
      rw [run'] at second
      obtain ⟨m, _, more, rfl⟩ := second
      rw [TokenStream.length_pending_drop] at more
      exact ⟨n + m, Nat.le_add_right_of_le taken, by omega, s.drop_drop n m⟩
    | error e s'' =>
      rw [run'] at second
      obtain ⟨m, more, rfl⟩ := second
      rw [TokenStream.length_pending_drop] at more
      exact ⟨n + m, by omega, s.drop_drop n m⟩

theorem Advances.bind {p : Parse α} {f : α → Parse β} (h : Advances least p)
    (next : ∀ a, Advances 0 (f a)) : Advances least (p >>= f) :=
  fun s => (h s).bind next

/-! Single steps. -/

theorem moves_error (e : InputError) : Moves (α := α) least s (.error e s) :=
  ⟨0, Nat.zero_le _, s.drop_zero.symm⟩

theorem advances_pure (a : α) : Advances 0 (pure a : Parse α) :=
  fun s => ⟨0, Nat.le_refl 0, Nat.zero_le _, s.drop_zero.symm⟩

theorem advances_throw (e : InputError) : Advances least (throw e : Parse α) :=
  fun _ => moves_error e

theorem advances_unexpected : Advances least (unexpected : Parse α) :=
  fun s => moves_error s.unexpected

theorem advances_unexpectedDetailed (expected : String) :
    Advances least (unexpectedDetailed expected : Parse α) :=
  fun s => moves_error (s.unexpectedDetailed expected)

theorem advances_ite {p q : Parse α} {c : Prop} [Decidable c] (yes : Advances least p)
    (no : Advances least q) : Advances least (if c then p else q) := by
  split
  · exact yes
  · exact no

theorem moves_current {f : Token → Parse β} (next : Moves least s (f s.current s)) :
    Moves least s ((current >>= f) s) :=
  next

theorem advances_current {f : Token → Parse β} (next : ∀ t, Advances least (f t)) :
    Advances least (current >>= f) :=
  fun s => next s.current s

theorem advances_position {f : Position → Parse β} (next : ∀ p, Advances least (f p)) :
    Advances least (position >>= f) :=
  fun s => next s.current.span.start s

theorem advances_remaining {f : Nat → Parse β} (next : ∀ budget, Advances least (f budget)) :
    Advances least (remaining >>= f) :=
  fun s => next s.pending.length s

theorem advances_spanFrom {f : Span → Parse β} (start : Position)
    (next : ∀ span, Advances least (f span)) : Advances least (spanFrom start >>= f) :=
  fun s => next (s.spanFrom start) s

theorem advances_node (kind : SyntaxTree.Kind) (start : Position) (text : String)
    (children : List SyntaxTree) : Advances 0 (node kind start text children) :=
  advances_spanFrom start fun _ => advances_pure _

/-- A token that is not the end is taken. -/
theorem moves_advance (some : s.current.kind ≠ .endOfInput) : Moves 1 s (advance s) :=
  ⟨1, Nat.le_refl 1, TokenStream.length_pending_pos some, s.drop_one.symm⟩

theorem advances_advance : Advances 0 advance := by
  intro s
  by_cases some : s.pending = []
  · exact ⟨0, Nat.le_refl 0, Nat.zero_le _, TokenStream.advance_of_end some⟩
  · exact ⟨1, Nat.zero_le 1, List.length_pos_iff.mpr some, s.drop_one.symm⟩

theorem advances_expect (kind : Token.Kind) : Advances 0 (expect kind) :=
  advances_current fun _ => advances_ite advances_advance advances_unexpected

theorem advances_eat (kind : Token.Kind) : Advances 0 (eat kind) :=
  advances_current fun _ =>
    advances_ite (advances_advance.bind fun _ => advances_pure true) (advances_pure false)

theorem advances_requireLevel (level required : Level) (feature : String) :
    Advances 0 (requireLevel level required feature) := by
  intro s
  rw [requireLevel_apply]
  split
  · exact advances_pure () s
  · exact moves_error _

theorem advances_commaSeparated {item : Parse SyntaxTree} (each : Advances least item)
    (budget : Nat) : Advances least (commaSeparated item budget) := by
  induction budget with
  | zero => exact each.bind fun first => advances_pure [first]
  | succ budget ih =>
    refine each.bind fun first => (advances_eat .comma).bind fun more => advances_ite ?_ (advances_pure _)
    exact ih.weaken.bind fun others => advances_pure (first :: others)

end Parse

end OpenExpr
