import OpenExpr.Proofs.Parse.Numbers
import OpenExpr.Proofs.Parse.Steady
import OpenExpr.Proofs.Token.Lexed

namespace OpenExpr

theorem AllLexed.advance {level : Level} {s : TokenStream} (lexed : AllLexed level s.pending) :
    AllLexed level s.advance.pending := by
  obtain ⟨_, split⟩ := Parse.forward_advance s
  rw [split] at lexed
  exact lexed.right

/-- The next token is one of a source, or there is none. -/
theorem AllLexed.current {level : Level} {s : TokenStream} (lexed : AllLexed level s.pending) :
    s.current.IsLexed level ∨ s.current.kind = .endOfInput := by
  cases pending : s.pending with
  | nil => exact .inr (TokenStream.current_kind_of_end pending)
  | cons t rest =>
    rw [TokenStream.current_of_pending pending]
    exact .inl (lexed t (by simp [pending]))

theorem AllLexed.isLexed_current {level : Level} {s : TokenStream} (lexed : AllLexed level s.pending)
    {kind : Token.Kind} (same : s.current.kind = kind) (other : kind ≠ .endOfInput) :
    s.current.IsLexed level :=
  lexed.current.resolve_right fun finish => other (same.symm.trans finish)

namespace Parse

variable {α β : Type} {level : Level} {P : α → Prop} {Q : β → Prop}

/-- What was read satisfies `P`, or something other than a number could not be read. What
is left are still tokens of a source. -/
def Gives (level : Level) (P : α → Prop) : EStateM.Result InputError TokenStream α → Prop
  | .ok a s => P a ∧ AllLexed level s.pending
  | .error e s => e.IsNoNumber ∧ AllLexed level s.pending

/-- From tokens of a source `p` reads nothing but what satisfies `P`, and never fails at a
number. -/
def Yields (level : Level) (P : α → Prop) (p : Parse α) : Prop :=
  ∀ s, AllLexed level s.pending → Gives level P (p s)

theorem Gives.bind {p : Parse α} {f : α → Parse β} {s : TokenStream}
    (first : Gives level P (p s)) (next : ∀ a, P a → Yields level Q (f a)) :
    Gives level Q ((p >>= f) s) := by
  cases run : p s with
  | ok a s' =>
    rw [run] at first
    rw [bind_ok run]
    exact next a first.1 s' first.2
  | error e s' =>
    rw [run] at first
    rw [bind_error run]
    exact first

theorem Yields.bind {p : Parse α} {f : α → Parse β} (h : Yields level P p)
    (next : ∀ a, P a → Yields level Q (f a)) : Yields level Q (p >>= f) :=
  fun s lexed => (h s lexed).bind next

/-- Two contracts of one reading hold together. -/
theorem Yields.and {P' : α → Prop} {p : Parse α} (h : Yields level P p) (h' : Yields level P' p) :
    Yields level (fun a => P a ∧ P' a) p := by
  intro s lexed
  have first := h s lexed
  have second := h' s lexed
  cases run : p s with
  | ok a s' =>
    rw [run] at first second
    exact ⟨⟨first.1, second.1⟩, first.2⟩
  | error e s' =>
    rw [run] at first
    exact first

theorem yields_pure {a : α} (good : P a) : Yields level P (pure a) :=
  fun _ lexed => ⟨good, lexed⟩

theorem yields_throw {e : InputError} (other : e.IsNoNumber) : Yields level P (throw e) :=
  fun _ lexed => ⟨other, lexed⟩

theorem yields_unexpected : Yields level P unexpected :=
  fun s lexed => ⟨s.isNoNumber_unexpected, lexed⟩

theorem yields_unexpectedDetailed (expected : String) :
    Yields level P (unexpectedDetailed expected) :=
  fun s lexed => ⟨s.isNoNumber_unexpectedDetailed expected, lexed⟩

theorem yields_ite {p q : Parse α} {c : Prop} [Decidable c] (yes : c → Yields level P p)
    (no : ¬ c → Yields level P q) : Yields level P (if c then p else q) := by
  split
  · exact yes ‹_›
  · exact no ‹_›

theorem yields_current : Yields level (fun _ => True) current :=
  fun _ lexed => ⟨trivial, lexed⟩

theorem yields_position : Yields level (fun _ => True) position :=
  fun _ lexed => ⟨trivial, lexed⟩

theorem yields_remaining : Yields level (fun _ => True) remaining :=
  fun _ lexed => ⟨trivial, lexed⟩

theorem yields_spanFrom (start : Position) : Yields level (fun _ => True) (spanFrom start) :=
  fun _ lexed => ⟨trivial, lexed⟩

theorem yields_advance : Yields level (fun _ => True) advance :=
  fun _ lexed => ⟨trivial, lexed.advance⟩

/-- The token that is taken is the one that was looked at before. -/
theorem gives_advance {f : Token → Parse β} {s : TokenStream} (lexed : AllLexed level s.pending)
    (next : Yields level Q (f s.current)) : Gives level Q ((advance >>= f) s) := by
  rw [bind_ok (advance_apply s)]
  exact next s.advance lexed.advance

theorem yields_expect (kind : Token.Kind) : Yields level (fun _ => True) (expect kind) :=
  yields_current.bind fun _ _ => yields_ite (fun _ => yields_advance) fun _ => yields_unexpected

theorem yields_eat (kind : Token.Kind) : Yields level (fun _ => True) (eat kind) :=
  yields_current.bind fun _ _ =>
    yields_ite (fun _ => yields_advance.bind fun _ _ => yields_pure trivial) fun _ =>
      yields_pure trivial

theorem yields_node {P : SyntaxTree → Prop} {kind : SyntaxTree.Kind} {start : Position} {text : String}
    {children : List SyntaxTree} (good : ∀ span, P { kind, span, text, children }) :
    Yields level P (node kind start text children) :=
  (yields_spanFrom start).bind fun span _ => yields_pure (good span)

theorem yields_commaSeparated {P : SyntaxTree → Prop} {item : Parse SyntaxTree}
    (each : Yields level P item) (budget : Nat) :
    Yields level (fun ts => ∀ t ∈ ts, P t) (commaSeparated item budget) := by
  induction budget with
  | zero => exact each.bind fun t good => yields_pure (by simpa using good)
  | succ budget ih =>
    refine each.bind fun t good => (yields_eat .comma).bind fun more _ => yields_ite ?_ ?_
    · exact fun _ => ih.bind fun ts others => yields_pure (by simpa using ⟨good, others⟩)
    · exact fun _ => yields_pure (by simpa using good)

end Parse

end OpenExpr
