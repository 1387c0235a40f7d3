import OpenExpr.Proofs.Recovery.Reader
import OpenExpr.Proofs.Registry.Operators

namespace OpenExpr

open Parse

namespace TokenStream

/-- The stream as if nothing had been read of it. -/
def fresh (s : TokenStream) : TokenStream :=
  { s with readTo := none }

theorem advance_fresh {s : TokenStream} (some : s.pending ≠ []) : s.fresh.advance = s.advance := by
  obtain ⟨t, rest, pending⟩ := List.exists_cons_of_ne_nil some
  simp [advance, fresh, pending]

/-- A stream is what comes first in it, followed by the rest. -/
theorem fresh_eq_followedBy {s x : TokenStream} {rest : List Token} (start : x.readTo = none)
    (pending : s.pending = x.pending ++ rest) :
    s.fresh = x.followedBy { s with pending := rest } := by
  simp [fresh, followedBy, start, pending]

end TokenStream

namespace Parse

variable {α β : Type}

/-- How far the input was read before has no say in what `p` reads. Only a fault at the
start leaves the stream as it was. -/
def Forgets (p : Parse α) : Prop :=
  ∀ s, s.pending ≠ [] → p s.fresh = p s ∨ ∃ e, p s = .error e s ∧ p s.fresh = .error e s.fresh

theorem forgets_unexpected : Forgets (unexpected : Parse α) :=
  fun s _ => .inr ⟨s.unexpected, rfl, rfl⟩

theorem forgets_unexpectedDetailed (expected : String) :
    Forgets (unexpectedDetailed expected : Parse α) :=
  fun s _ => .inr ⟨s.unexpectedDetailed expected, rfl, rfl⟩

theorem Forgets.bind {p : Parse α} (first : Forgets p) (f : α → Parse β) : Forgets (p >>= f) := by
  intro s some
  rcases first s some with same | ⟨e, run, run'⟩
  · left
    change EStateM.bind p f s.fresh = EStateM.bind p f s
    simp only [EStateM.bind, same]
  · exact .inr ⟨e, bind_error run f, bind_error run' f⟩

/-- A token that is taken is what the input was read up to. -/
theorem forgets_advance_then (f : Token → Parse α) : Forgets (advance >>= f) := by
  intro s some
  left
  rw [bind_ok (advance_apply s), bind_ok (advance_apply s.fresh), TokenStream.advance_fresh some]
  rfl

theorem forgets_current {f : Token → Parse α} (next : ∀ t, Forgets (f t)) :
    Forgets (current >>= f) :=
  fun s some => next s.current s some

theorem forgets_position {f : Position → Parse α} (next : ∀ p, Forgets (f p)) :
    Forgets (position >>= f) :=
  forgets_current fun t => next t.span.start

theorem forgets_ite {p q : Parse α} {c : Prop} [Decidable c] (yes : Forgets p) (no : Forgets q) :
    Forgets (if c then p else q) := by
  split
  · exact yes
  · exact no

end Parse

namespace Grammar

variable (g : Grammar)

theorem forgets_primaryWith (e : Int32 → Parse SyntaxTree) : Forgets (g.primaryWith e) := by
  refine forgets_ite forgets_unexpected (forgets_current fun t => ?_)
  split
  · exact forgets_advance_then _
  · exact forgets_advance_then _
  · exact forgets_advance_then _
  · exact forgets_advance_then _
  · exact forgets_advance_then _
  · exact forgets_advance_then _
  · exact forgets_unexpected

theorem forgets_operandWith (e : Int32 → Parse SyntaxTree) : Forgets (g.operandWith e) := by
  refine forgets_current fun t => ?_
  split
  · exact g.forgets_primaryWith e
  · split
    · exact forgets_unexpectedDetailed _
    · exact forgets_advance_then _

theorem forgets_expr (power : Int32) : Forgets (g.expr power) := by
  rw [expr_eq]
  exact forgets_position fun _ => (g.forgets_operandWith _).bind _

theorem forgets_topLevel : Forgets g.topLevel :=
  forgets_position fun _ => (g.forgets_expr 0).bind _

theorem forgets_statement : Forgets g.statement := by
  refine forgets_ite g.forgets_topLevel (forgets_current fun t => ?_)
  unfold statementOf
  split
  · exact forgets_advance_then _
  · exact forgets_advance_then _
  · exact g.forgets_topLevel

/-- A statement by itself is the same statement in front of a semicolon. -/
theorem statement_ok_before {x s : TokenStream} {d : Token} {rest : List Token}
    (start : x.readTo = none) (some : x.pending ≠ []) (semicolon : d.kind = .semicolon)
    (pending : s.pending = x.pending ++ d :: rest) {a : SyntaxTree × Option OperatorDefinition}
    {t : TokenStream} (run : g.statement x = .ok a t) :
    g.statement s = .ok a (t.followedBy { s with pending := d :: rest }) := by
  let u : TokenStream := { s with pending := d :: rest }
  have meet : TokenStream.MeetAt d u u := ⟨semicolon, ⟨rest, rfl⟩, rest, rfl⟩
  have stays := (g.halts_statement x.pending.length).stays x d u u (List.length_pos_iff.mpr some)
    (Nat.le_refl _) meet
  rw [run] at stays
  rw [← TokenStream.fresh_eq_followedBy start pending] at stays
  rcases g.forgets_statement s (by simp [pending]) with same | ⟨e, _, run'⟩
  · rw [← same]
    exact stays.1
  · rw [run'] at stays
    exact absurd stays.1 (by simp)

/-- Where no statement can be read, what is wrong in front of a semicolon depends on
nothing behind it. -/
theorem statement_error_before {x : TokenStream} {d : Token} (start : x.readTo = none)
    (some : x.pending ≠ []) (semicolon : d.kind = .semicolon) {e : InputError} {t : TokenStream}
    (run : g.statement x = .error e t) : ∃ e', ∀ s rest, s.pending = x.pending ++ d :: rest →
      ∃ s', g.statement s = .error e' s' ∧ s'.pending = t.pending ++ d :: rest ∧
        s'.finish = s.finish := by
  let u : TokenStream := { x with pending := [d] }
  have stays (v : TokenStream) (rest : List Token) (next : v.pending = d :: rest) :=
    (g.halts_statement x.pending.length).stays x d u v (List.length_pos_iff.mpr some) (Nat.le_refl _)
      ⟨semicolon, ⟨[], rfl⟩, rest, next⟩
  simp only [run] at stays
  obtain ⟨e', left, _⟩ := stays u [] rfl
  refine ⟨e', fun s rest pending => ?_⟩
  let v : TokenStream := { s with pending := d :: rest }
  obtain ⟨e'', left', right⟩ := stays v rest rfl
  rw [left] at left'
  cases left'
  rw [← TokenStream.fresh_eq_followedBy start pending] at right
  rcases g.forgets_statement s (by simp [pending]) with same | ⟨e'', run, run'⟩
  · exact ⟨_, same.symm.trans right, rfl, rfl⟩
  · rw [run'] at right
    obtain ⟨rfl, same⟩ := EStateM.Result.error.inj right
    have left : s.fresh.pending = (t.followedBy v).pending := by rw [same]
    exact ⟨s, run, left, rfl⟩

/-- The operator of a header is the same in front of a semicolon. -/
theorem introduced?_before {x s : TokenStream} {d : Token} {rest : List Token}
    (some : x.pending ≠ []) (semicolon : d.kind = .semicolon)
    (pending : s.pending = x.pending ++ d :: rest) : introduced? s = introduced? x := by
  obtain ⟨t, w, front⟩ := List.exists_cons_of_ne_nil some
  let u : TokenStream := { s with pending := d :: rest }
  have meet : TokenStream.MeetAt d u u := ⟨semicolon, ⟨rest, rfl⟩, rest, rfl⟩
  have current : s.current = x.current := by
    simp [TokenStream.current, pending, front]
  have behind : s.advance = x.advance.followedBy u := by
    simp [TokenStream.advance, TokenStream.followedBy, pending, front, u]
  have stays := (halts_prototype (n := x.advance.pending.length)).stays x.advance d u u
    (Nat.zero_le _) (Nat.le_refl _) meet
  have header : headerOperator? s.advance = headerOperator? x.advance := by
    unfold headerOperator?
    rw [behind]
    cases run : prototype x.advance with
    | ok a t =>
      rw [run] at stays
      rw [stays.1]
    | error e t =>
      rw [run] at stays
      obtain ⟨e', left, _⟩ := stays
      rw [left]
  unfold introduced?
  rw [current, header]

end Grammar

end OpenExpr
