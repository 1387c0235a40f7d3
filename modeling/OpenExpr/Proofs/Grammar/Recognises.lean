import OpenExpr.Proofs.Parse.Budget
import OpenExpr.Proofs.Token.Sample

namespace OpenExpr

namespace Parse

variable {α β : Type} {level : Level}

/-- A word of the language was read. If instead the input stopped too early, more
tokens would have made it one. -/
def Takes (level : Level) (L : α → List Token → Prop) (s : TokenStream) :
    EStateM.Result InputError TokenStream α → Prop
  | .ok a s' => ∃ w, s.pending = w ++ s'.pending ∧ L a w
  | .error e _ => e.isEndOfInput = true →
    ∃ a more, AllLexed level more ∧ L a (s.pending ++ more)

/-- The language has a word. -/
def HasWord (level : Level) (L : α → List Token → Prop) : Prop :=
  ∃ a w, AllLexed level w ∧ L a w

/-- Whatever `p` reads is in the language, and it finds the input too short only
in front of what can still be completed. The language may depend on the value. -/
structure Recognises (level : Level) (p : Parse α) (L : α → List Token → Prop) : Prop where
  takes : ∀ s, AllLexed level s.pending → Takes level L s (p s)
  word : HasWord level L

/-- The words of one language, each followed by a word of the next. -/
def Then (L : α → List Token → Prop) (M : α → β → List Token → Prop) (b : β) (w : List Token) :
    Prop :=
  ∃ a u v, w = u ++ v ∧ L a u ∧ M a b v

theorem Takes.imp {L M : α → List Token → Prop} {s : TokenStream}
    {r : EStateM.Result InputError TokenStream α} (h : Takes level L s r)
    (sub : ∀ a w, L a w → M a w) : Takes level M s r := by
  cases r with
  | ok a s' =>
    obtain ⟨w, split, inL⟩ := h
    exact ⟨w, split, sub a w inL⟩
  | error e s' =>
    intro early
    obtain ⟨a, more, lexed, inL⟩ := h early
    exact ⟨a, more, lexed, sub a _ inL⟩

theorem Takes.map {p : Parse α} {f : α → β} {L : α → List Token → Prop}
    {M : β → List Token → Prop} {s : TokenStream} (h : Takes level L s (p s))
    (sub : ∀ a w, L a w → M (f a) w) : Takes level M s ((p >>= fun a => pure (f a)) s) := by
  cases run : p s with
  | ok a s' =>
    rw [run] at h
    rw [bind_ok run]
    obtain ⟨w, split, inL⟩ := h
    exact ⟨w, split, sub a w inL⟩
  | error e s' =>
    rw [run] at h
    rw [bind_error run]
    intro early
    obtain ⟨a, more, lexed, inL⟩ := h early
    exact ⟨f a, more, lexed, sub a _ inL⟩

theorem Recognises.imp {p : Parse α} {L M : α → List Token → Prop} (h : Recognises level p L)
    (sub : ∀ a w, L a w → M a w) : Recognises level p M where
  takes s lexed := (h.takes s lexed).imp sub
  word := by
    obtain ⟨a, w, lexed, inL⟩ := h.word
    exact ⟨a, w, lexed, sub a w inL⟩

theorem Recognises.bind {p : Parse α} {f : α → Parse β} {L : α → List Token → Prop}
    {M : α → β → List Token → Prop} (h : Recognises level p L)
    (next : ∀ a, Recognises level (f a) (M a)) : Recognises level (p >>= f) (Then L M) where
  takes s lexed := by
    have first := h.takes s lexed
    cases run : p s with
    | error e s' =>
      rw [run] at first
      rw [bind_error run]
      intro early
      obtain ⟨a, more, lexed, inL⟩ := first early
      obtain ⟨b, w, lexed', inM⟩ := (next a).word
      exact ⟨b, more ++ w, lexed.append lexed', a, _, w, (List.append_assoc _ _ _).symm, inL, inM⟩
    | ok a s' =>
      rw [run] at first
      rw [bind_ok run]
      obtain ⟨w, split, inL⟩ := first
      rw [split] at lexed
      have second := (next a).takes s' lexed.right
      cases run' : f a s' with
      | error e s'' =>
        rw [run'] at second
        intro early
        obtain ⟨b, more, lexed, inM⟩ := second early
        exact ⟨b, more, lexed, a, w, _, by rw [split, List.append_assoc], inL, inM⟩
      | ok b s'' =>
        rw [run'] at second
        obtain ⟨v, split', inM⟩ := second
        exact ⟨w ++ v, by rw [split, split', List.append_assoc], a, w, v, rfl, inL, inM⟩
  word := by
    obtain ⟨a, w, lexed, inL⟩ := h.word
    obtain ⟨b, v, lexed', inM⟩ := (next a).word
    exact ⟨b, w ++ v, lexed.append lexed', a, w, v, rfl, inL, inM⟩

/-! Single steps. -/

theorem takes_error {L : α → List Token → Prop} {s s' : TokenStream} {e : InputError}
    (final : e.isEndOfInput = false) : Takes level L s (.error e s') := by
  intro early
  rw [final] at early
  cases early

/-- Nothing but the word of the language is missing at the end of the input. -/
theorem takes_unexpected {L : α → List Token → Prop} (word : HasWord level L) (s : TokenStream) :
    Takes level L s (.error s.unexpected s) := by
  cases pending : s.pending with
  | nil =>
    intro _
    obtain ⟨a, w, lexed, inL⟩ := word
    exact ⟨a, w, lexed, by rwa [pending]⟩
  | cons t rest => exact takes_error (by simp [TokenStream.unexpected, pending, InputError.isEndOfInput])

theorem takes_unexpectedDetailed {L : α → List Token → Prop} (word : HasWord level L)
    (expected : String) (s : TokenStream) :
    Takes level L s (.error (s.unexpectedDetailed expected) s) := by
  cases pending : s.pending with
  | nil =>
    intro _
    obtain ⟨a, w, lexed, inL⟩ := word
    exact ⟨a, w, lexed, by rwa [pending]⟩
  | cons t rest =>
    exact takes_error (by simp [TokenStream.unexpectedDetailed, pending, InputError.isEndOfInput])

theorem recognises_unexpected {L : α → List Token → Prop} (word : HasWord level L) :
    Recognises level unexpected L where
  takes s _ := takes_unexpected word s
  word := word

theorem recognises_unexpectedDetailed_bind {L : β → List Token → Prop} (word : HasWord level L)
    (expected : String) (f : α → Parse β) :
    Recognises level (unexpectedDetailed expected >>= f) L where
  takes s _ := takes_unexpectedDetailed word expected s
  word := word

theorem recognises_value (a : α) : Recognises level (pure a) fun b w => b = a ∧ w = [] where
  takes _ _ := ⟨[], rfl, rfl, rfl⟩
  word := ⟨a, [], .nil, rfl, rfl⟩

theorem recognises_pure (a : α) : Recognises level (pure a) fun _ w => w = [] :=
  (recognises_value a).imp fun _ _ => And.right

theorem recognises_current {f : Token → Parse α} {L : α → List Token → Prop}
    (next : ∀ t, Recognises level (f t) L) : Recognises level (current >>= f) L where
  takes s lexed := (next s.current).takes s lexed
  word := (next (Token.endAt Position.null)).word

theorem recognises_position {f : Position → Parse α} {L : α → List Token → Prop}
    (next : ∀ p, Recognises level (f p) L) : Recognises level (position >>= f) L where
  takes s lexed := (next s.current.span.start).takes s lexed
  word := (next Position.null).word

theorem recognises_remaining {f : Nat → Parse α} {L : α → List Token → Prop}
    (next : ∀ n, Recognises level (f n) L) : Recognises level (remaining >>= f) L where
  takes s lexed := (next s.pending.length).takes s lexed
  word := (next 0).word

theorem recognises_spanFrom {f : Span → Parse α} {L : α → List Token → Prop} (start : Position)
    (next : ∀ span, Recognises level (f span) L) : Recognises level (spanFrom start >>= f) L where
  takes s lexed := (next (s.spanFrom start)).takes s lexed
  word := (next Span.null).word

theorem recognises_node (kind : SyntaxTree.Kind) (start : Position) (text : String)
    (children : List SyntaxTree) :
    Recognises level (node kind start text children) (fun _ w => w = []) :=
  recognises_spanFrom start fun _ => recognises_pure _

/-- A token that is there is read, and the rest is as it is behind it. -/
theorem takes_advance {f : Token → Parse α} {M L : α → List Token → Prop} {s : TokenStream}
    {t : Token} {rest : List Token} (pending : s.pending = t :: rest)
    (lexed : AllLexed level s.pending) (next : Recognises level (f t) M)
    (sub : ∀ a w, M a w → L a (t :: w)) : Takes level L s ((advance >>= f) s) := by
  rw [bind_ok (advance_apply s), TokenStream.current_of_pending pending]
  have behind := TokenStream.pending_advance_of_pending pending
  rw [pending] at lexed
  have h := next.takes s.advance (by rw [behind]; exact lexed.tail)
  cases run : f t s.advance with
  | error e s' =>
    rw [run] at h
    intro early
    obtain ⟨a, more, lexed, inM⟩ := h early
    refine ⟨a, more, lexed, ?_⟩
    rw [pending, List.cons_append]
    rw [behind] at inM
    exact sub a _ inM
  | ok a s' =>
    rw [run] at h
    obtain ⟨w, split, inM⟩ := h
    exact ⟨t :: w, by rw [pending, List.cons_append, ← split, behind], sub a w inM⟩

/-- Where the next token decides between what starts with it and something else. -/
theorem recognises_choice {P : Token → Prop} [DecidablePred P] {f : Token → Parse α} {q : Parse α}
    {M : Token → α → List Token → Prop} {L : α → List Token → Prop}
    (real : ∀ t, P t → t.kind ≠ .endOfInput) (next : ∀ t, P t → Recognises level (f t) (M t))
    (other : Recognises level q L) (sub : ∀ t a w, P t → M t a w → L a (t :: w)) :
    Recognises level (current >>= fun t => if P t then advance >>= f else q) L where
  takes s lexed := by
    rw [bind_ok (current_apply s)]
    split
    · rename_i yes
      cases pending : s.pending with
      | nil => exact absurd (TokenStream.current_kind_of_end pending) (real _ yes)
      | cons t rest =>
        rw [TokenStream.current_of_pending pending] at yes
        exact takes_advance pending lexed (next t yes) fun a w => sub t a w yes
    · exact other.takes s lexed
  word := other.word

/-- Where the next token must be one of a certain sort. -/
theorem recognises_required {P : Token → Prop} [DecidablePred P] {f : Token → Parse α}
    {k : β → Parse α} {expected : String} {M : Token → α → List Token → Prop}
    {L : α → List Token → Prop} (real : ∀ t, P t → t.kind ≠ .endOfInput)
    (known : ∃ t, P t ∧ t.IsLexed level) (next : ∀ t, P t → Recognises level (f t) (M t))
    (sub : ∀ t a w, P t → M t a w → L a (t :: w)) :
    Recognises level
      (current >>= fun t => if P t then advance >>= f else unexpectedDetailed expected >>= k) L := by
  have word : HasWord level L := by
    obtain ⟨t, here, lexed⟩ := known
    obtain ⟨a, w, all, inM⟩ := (next t here).word
    exact ⟨a, t :: w, all.cons lexed, sub t a w here inM⟩
  exact recognises_choice real next (recognises_unexpectedDetailed_bind word expected k) sub

theorem recognises_expect {kind : Token.Kind} (real : kind ≠ .endOfInput)
    (known : ∃ t : Token, t.kind = kind ∧ t.IsLexed level) :
    Recognises level (expect kind) (fun t w => w = [t] ∧ t.kind = kind) := by
  have word : HasWord level fun (t : Token) w => w = [t] ∧ t.kind = kind := by
    obtain ⟨t, same, lexed⟩ := known
    exact ⟨t, [t], AllLexed.nil.cons lexed, rfl, same⟩
  have choice := recognises_choice (P := fun t => t.kind = kind) (f := pure)
    (fun t same => same ▸ real) (fun t _ => recognises_value t) (recognises_unexpected word)
    (by rintro t a w same ⟨rfl, rfl⟩; exact ⟨rfl, same⟩)
  exact choice

/-- Something read after a token of the given kind, or else without it. -/
theorem recognises_eat (kind : Token.Kind) {f : Bool → Parse α} {M L : α → List Token → Prop}
    (real : kind ≠ .endOfInput) (yes : Recognises level (f true) M)
    (no : Recognises level (f false) L)
    (sub : ∀ (t : Token) a w, t.kind = kind → M a w → L a (t :: w)) :
    Recognises level (eat kind >>= f) L := by
  rw [eat_bind]
  exact recognises_choice (fun t same => same ▸ real) (fun _ _ => yes) no sub

/-- Words of a language with commas between them. -/
inductive CommaSeparated (L : List Token → Prop) : List Token → Prop
  | one {w} : L w → CommaSeparated L w
  | more {w d ws} : L w → d.kind = .comma → CommaSeparated L ws → CommaSeparated L (w ++ d :: ws)

/-- Nothing, or a comma and more of the words. -/
def CommaRest (L : List Token → Prop) (w : List Token) : Prop :=
  w = [] ∨ ∃ d v, w = d :: v ∧ d.kind = .comma ∧ CommaSeparated L v

theorem recognises_commaSeparated {item : Parse SyntaxTree} {L : List Token → Prop}
    (h : Recognises level item fun _ => L) (budget : Nat) :
    Recognises level (commaSeparated item budget) fun _ => CommaSeparated L := by
  induction budget with
  | zero =>
    refine (h.bind fun first => recognises_pure [first]).imp ?_
    rintro _ _ ⟨_, w, _, rfl, inL, rfl⟩
    rw [List.append_nil]
    exact .one inL
  | succ budget ih =>
    have stop (first : SyntaxTree) : Recognises level (pure [first]) fun _ => CommaRest L :=
      (recognises_pure [first]).imp fun _ _ => .inl
    refine (h.bind fun first => recognises_eat .comma (by decide)
      (ih.bind fun rest => recognises_pure (first :: rest)) (stop first) ?_).imp ?_
    · rintro d _ _ comma ⟨_, v, _, rfl, inL, rfl⟩
      rw [List.append_nil]
      exact .inr ⟨d, v, rfl, comma, inL⟩
    rintro _ _ ⟨_, w, _, rfl, inL, rfl | ⟨d, v, rfl, comma, inRest⟩⟩
    · rw [List.append_nil]
      exact .one inL
    · exact .more inL comma inRest

end Parse

end OpenExpr
