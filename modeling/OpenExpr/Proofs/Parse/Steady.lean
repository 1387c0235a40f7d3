import OpenExpr.SyntaxTree.Expression

namespace OpenExpr

/-- The stream with more tokens in front of its end. -/
def TokenStream.extend (s : TokenStream) (more : List Token) : TokenStream :=
  { s with pending := s.pending ++ more }

theorem TokenStream.extend_nil (s : TokenStream) : s.extend [] = s := by
  simp [extend]

theorem TokenStream.current_of_pending {s : TokenStream} {t : Token} {rest : List Token}
    (pending : s.pending = t :: rest) : s.current = t := by
  simp only [current, pending]

theorem TokenStream.current_kind_of_end {s : TokenStream} (atEnd : s.pending = []) :
    s.current.kind = .endOfInput := by
  simpa only [current, atEnd] using s.finish_kind

theorem TokenStream.current_symbol_of_end {s : TokenStream} (atEnd : s.pending = []) :
    s.current.symbol? = none :=
  Token.symbol?_eq_none_of_kind (by
    rw [current_kind_of_end atEnd]
    decide)

theorem TokenStream.advance_of_end {s : TokenStream} (atEnd : s.pending = []) : s.advance = s := by
  simp only [advance, atEnd]

theorem TokenStream.pending_advance_of_pending {s : TokenStream} {t : Token} {rest : List Token}
    (pending : s.pending = t :: rest) : s.advance.pending = rest := by
  simp only [advance, pending]

theorem TokenStream.current_extend {s : TokenStream} (more : List Token) (some : s.pending ≠ []) :
    (s.extend more).current = s.current := by
  obtain ⟨t, rest, pending⟩ := List.exists_cons_of_ne_nil some
  simp [current, extend, pending]

theorem TokenStream.advance_extend {s : TokenStream} (more : List Token) (some : s.pending ≠ []) :
    (s.extend more).advance = s.advance.extend more := by
  obtain ⟨t, rest, pending⟩ := List.exists_cons_of_ne_nil some
  simp [advance, extend, pending]

theorem TokenStream.unexpected_extend {s : TokenStream} (more : List Token)
    (some : s.pending ≠ []) : (s.extend more).unexpected = s.unexpected := by
  obtain ⟨t, rest, pending⟩ := List.exists_cons_of_ne_nil some
  simp [unexpected, extend, pending]

theorem TokenStream.unexpectedDetailed_extend {s : TokenStream} (more : List Token)
    (expected : String) (some : s.pending ≠ []) :
    (s.extend more).unexpectedDetailed expected = s.unexpectedDetailed expected := by
  obtain ⟨t, rest, pending⟩ := List.exists_cons_of_ne_nil some
  simp [unexpectedDetailed, extend, pending]

namespace Parse

variable {α β : Type}

theorem bind_ok {p : Parse α} {s s' : TokenStream} {a : α} (run : p s = .ok a s')
    (f : α → Parse β) : (p >>= f) s = f a s' := by
  change EStateM.bind p f s = _
  simp only [EStateM.bind, run]

theorem bind_error {p : Parse α} {s s' : TokenStream} {e : InputError} (run : p s = .error e s')
    (f : α → Parse β) : (p >>= f) s = .error e s' := by
  change EStateM.bind p f s = _
  simp only [EStateM.bind, run]

theorem bind_eq_ok {p : Parse α} {f : α → Parse β} {s s'' : TokenStream} {b : β}
    (run : (p >>= f) s = .ok b s'') : ∃ a s', p s = .ok a s' ∧ f a s' = .ok b s'' := by
  cases first : p s with
  | ok a s' => exact ⟨a, s', rfl, (bind_ok first f).symm.trans run⟩
  | error e s' =>
    rw [bind_error first] at run
    cases run

/-- The stream that a reading leaves behind, whatever came of it. -/
def leftover : EStateM.Result InputError TokenStream α → TokenStream
  | .ok _ s => s
  | .error _ s => s

/-- The same result with more tokens left to read. -/
def extendResult (more : List Token) :
    EStateM.Result InputError TokenStream α → EStateM.Result InputError TokenStream α
  | .ok a s => .ok a (s.extend more)
  | .error e s => .error e (s.extend more)

/-- The reading came to the end of the input, so tokens added there may change
what it does. -/
def Waits : EStateM.Result InputError TokenStream α → Prop
  | .ok _ s => s.pending = []
  | .error e _ => e.isEndOfInput = true

theorem extendResult_nil (r : EStateM.Result InputError TokenStream α) : extendResult [] r = r := by
  cases r <;> simp only [extendResult, TokenStream.extend_nil]

/-- A verdict that reads no token. -/
def settle (verdict : Except InputError α) : Parse α :=
  match verdict with
  | .ok a => pure a
  | .error e => throw e

/-- On inputs of at most `n` tokens `p` only moves forward, towards the end that there
is, and unless it comes to it, `q` does the same on any longer input. -/
structure Extends (n : Nat) (p q : Parse α) : Prop where
  forward : ∀ s, s.pending.length ≤ n → ∃ w, s.pending = w ++ (leftover (p s)).pending
  finish : ∀ s, s.pending.length ≤ n → (leftover (p s)).finish = s.finish
  agrees : ∀ s more, s.pending.length ≤ n → (more = [] ∨ s.pending ≠ [] ∧ ¬ Waits (p s)) →
    q (s.extend more) = extendResult more (p s)

/-- Moreover nothing is wrong for `p` with the end of the input but that it is
the end. -/
structure Steady (n : Nat) (p q : Parse α) : Prop extends Extends n p q where
  patient : ∀ s, s.pending = [] → Waits (p s)

theorem Extends.mono {n m : Nat} {p q : Parse α} (h : Extends n p q) (bound : m ≤ n) :
    Extends m p q where
  forward s small := h.forward s (by omega)
  finish s small := h.finish s (by omega)
  agrees s more small := h.agrees s more (by omega)

theorem Steady.mono {n m : Nat} {p q : Parse α} (h : Steady n p q) (bound : m ≤ n) :
    Steady m p q where
  toExtends := h.toExtends.mono bound
  patient := h.patient

theorem Extends.forward_length {n : Nat} {p q : Parse α} (h : Extends n p q) {s : TokenStream}
    (small : s.pending.length ≤ n) : (leftover (p s)).pending.length ≤ s.pending.length := by
  obtain ⟨w, split⟩ := h.forward s small
  simp [split]

/-- On the same input both readings give the same. -/
theorem Extends.eq {n : Nat} {p q : Parse α} (h : Extends n p q) {s : TokenStream}
    (small : s.pending.length ≤ n) : p s = q s := by
  have same := h.agrees s [] small (.inl rfl)
  rw [TokenStream.extend_nil, extendResult_nil] at same
  exact same.symm

theorem Extends.bind {n : Nat} {p q : Parse α} {f g : α → Parse β} (h : Extends n p q)
    (next : ∀ a, Steady n (f a) (g a)) : Extends n (p >>= f) (q >>= g) where
  forward s small := by
    have shorter := h.forward_length small
    obtain ⟨w, split⟩ := h.forward s small
    cases run : p s with
    | error e s' =>
      rw [run] at split
      rw [bind_error run]
      exact ⟨w, split⟩
    | ok a s' =>
      simp only [run, leftover] at split shorter
      obtain ⟨v, splitNext⟩ := (next a).forward s' (by omega)
      rw [bind_ok run]
      exact ⟨w ++ v, by rw [split, List.append_assoc, ← splitNext]⟩
  finish s small := by
    have shorter := h.forward_length small
    have same := h.finish s small
    cases run : p s with
    | error e s' =>
      rw [run] at same
      rw [bind_error run]
      exact same
    | ok a s' =>
      simp only [run, leftover] at same shorter
      rw [bind_ok run]
      exact ((next a).finish s' (by omega)).trans same
  agrees s more small going := by
    have same := h.agrees s more small
    have shorter := h.forward_length small
    cases run : p s with
    | error e s' =>
      rw [bind_error run] at going ⊢
      rw [run] at same
      exact bind_error (same going) g
    | ok a s' =>
      rw [bind_ok run] at going ⊢
      simp only [run, leftover] at same shorter
      -- the rest would wait if the first part had come to the end
      have inner : more = [] ∨ s'.pending ≠ [] ∧ ¬ Waits (f a s') :=
        going.imp_right fun o => ⟨fun atEnd => o.2 ((next a).patient s' atEnd), o.2⟩
      have outer : more = [] ∨ s.pending ≠ [] ∧ s'.pending ≠ [] := by
        rcases going with none | o
        · exact .inl none
        · exact inner.imp_right fun i => ⟨o.1, i.1⟩
      rw [bind_ok (same outer)]
      exact (next a).agrees s' more (by omega) inner

theorem Steady.bind {n : Nat} {p q : Parse α} {f g : α → Parse β} (h : Steady n p q)
    (next : ∀ a, Steady n (f a) (g a)) : Steady n (p >>= f) (q >>= g) where
  toExtends := h.toExtends.bind next
  patient s atEnd := by
    have waits := h.patient s atEnd
    cases run : p s with
    | error e s' =>
      rw [bind_error run]
      rwa [run] at waits
    | ok a s' =>
      rw [bind_ok run]
      rw [run] at waits
      exact (next a).patient s' waits

/-! Single steps. -/

theorem current_apply (s : TokenStream) : current s = .ok s.current s := rfl

theorem advance_apply (s : TokenStream) : advance s = .ok s.current s.advance := rfl

theorem remaining_apply (s : TokenStream) : remaining s = .ok s.pending.length s := rfl

theorem steady_pure (n : Nat) (a : α) : Steady n (pure a : Parse α) (pure a) where
  forward _ _ := ⟨[], rfl⟩
  finish _ _ := rfl
  agrees _ _ _ _ := rfl
  patient _ atEnd := atEnd

theorem steady_unexpected (n : Nat) : Steady n (unexpected : Parse α) unexpected where
  forward _ _ := ⟨[], rfl⟩
  finish _ _ := rfl
  agrees s more _ going := by
    rcases going with rfl | ⟨some, _⟩
    · rw [TokenStream.extend_nil, extendResult_nil]
    · change EStateM.Result.error (s.extend more).unexpected _ = .error s.unexpected _
      rw [TokenStream.unexpected_extend more some]
  patient s atEnd := by
    change s.unexpected.isEndOfInput = true
    simp [TokenStream.unexpected, atEnd, InputError.isEndOfInput]

theorem steady_unexpectedDetailed (n : Nat) (expected : String) :
    Steady n (unexpectedDetailed expected : Parse α) (unexpectedDetailed expected) where
  forward _ _ := ⟨[], rfl⟩
  finish _ _ := rfl
  agrees s more _ going := by
    rcases going with rfl | ⟨some, _⟩
    · rw [TokenStream.extend_nil, extendResult_nil]
    · change EStateM.Result.error ((s.extend more).unexpectedDetailed expected) _ =
        .error (s.unexpectedDetailed expected) _
      rw [TokenStream.unexpectedDetailed_extend more expected some]
  patient s atEnd := by
    change (s.unexpectedDetailed expected).isEndOfInput = true
    simp [TokenStream.unexpectedDetailed, TokenStream.unexpected, atEnd, InputError.isEndOfInput]

theorem forward_advance (s : TokenStream) : ∃ w, s.pending = w ++ s.advance.pending := by
  cases pending : s.pending with
  | nil => exact ⟨[], by rw [TokenStream.advance_of_end pending, pending]; rfl⟩
  | cons t rest => exact ⟨[t], by rw [TokenStream.pending_advance_of_pending pending]; rfl⟩

theorem finish_advance (s : TokenStream) : s.advance.finish = s.finish := by
  unfold TokenStream.advance
  split <;> rfl

theorem length_pending_advance {n : Nat} {s : TokenStream} (small : s.pending.length ≤ n + 1) :
    s.advance.pending.length ≤ n := by
  cases pending : s.pending with
  | nil =>
    rw [TokenStream.advance_of_end pending, pending]
    exact Nat.zero_le n
  | cons t rest =>
    rw [pending, List.length_cons] at small
    rw [TokenStream.pending_advance_of_pending pending]
    omega

/-- After a token is read there is one less to come, so what follows may be
compared on shorter inputs only. -/
theorem steady_advance_then {n : Nat} {f g : Token → Parse α} (next : ∀ t, Steady n (f t) (g t)) :
    Steady (n + 1) (advance >>= f) (advance >>= g) where
  forward s small := by
    rw [bind_ok (advance_apply s)]
    obtain ⟨w, split⟩ := forward_advance s
    obtain ⟨v, splitNext⟩ := (next s.current).forward s.advance (length_pending_advance small)
    exact ⟨w ++ v, by rw [List.append_assoc, ← splitNext, ← split]⟩
  finish s small := by
    rw [bind_ok (advance_apply s)]
    exact ((next s.current).finish s.advance (length_pending_advance small)).trans (finish_advance s)
  agrees s more small going := by
    rw [bind_ok (advance_apply s)] at going ⊢
    cases pending : s.pending with
    | nil =>
      have none : more = [] := going.resolve_right fun o => o.1 pending
      subst none
      rw [TokenStream.extend_nil, extendResult_nil, bind_ok (advance_apply s)]
      rw [TokenStream.advance_of_end pending]
      exact ((next s.current).eq (by rw [pending]; exact Nat.zero_le n)).symm
    | cons t rest =>
      have some : s.pending ≠ [] := by rw [pending]; exact List.cons_ne_nil t rest
      rw [bind_ok (advance_apply (s.extend more)), TokenStream.current_extend more some,
        TokenStream.advance_extend more some]
      apply (next s.current).agrees
      · rw [pending, List.length_cons] at small
        rw [TokenStream.pending_advance_of_pending pending]
        omega
      · exact going.imp_right fun o => ⟨fun atEnd => o.2 ((next _).patient _ atEnd), o.2⟩
  patient s atEnd := by
    rw [bind_ok (advance_apply s), TokenStream.advance_of_end atEnd]
    exact (next s.current).patient s atEnd

theorem steady_advance (n : Nat) : Steady n advance advance := by
  have step := steady_advance_then fun t => steady_pure n t
  rw [bind_pure] at step
  exact step.mono (Nat.le_succ n)

/-- What is done with the next token need only be right about the end of the
input where the token is the end. -/
theorem steady_current_bind {n : Nat} {f g : Token → Parse α}
    (next : ∀ t, Extends n (f t) (g t))
    (patient : ∀ t, t.kind = .endOfInput → ∀ s, s.pending = [] → Waits (f t s)) :
    Steady n (current >>= f) (current >>= g) where
  forward s small := by
    rw [bind_ok (current_apply s)]
    exact (next s.current).forward s small
  finish s small := by
    rw [bind_ok (current_apply s)]
    exact (next s.current).finish s small
  agrees s more small going := by
    rw [bind_ok (current_apply s)] at going ⊢
    have same : (s.extend more).current = s.current := by
      rcases going with rfl | o
      · rw [TokenStream.extend_nil]
      · exact TokenStream.current_extend more o.1
    rw [bind_ok (current_apply (s.extend more)), same]
    exact (next s.current).agrees s more small going
  patient s atEnd := by
    rw [bind_ok (current_apply s)]
    exact patient s.current (TokenStream.current_kind_of_end atEnd) s atEnd

theorem steady_ite {n : Nat} {p q p' q' : Parse α} (condition : Prop) [Decidable condition]
    (yes : Steady n p q) (no : Steady n p' q') :
    Steady n (if condition then p else p') (if condition then q else q') := by
  split
  · exact yes
  · exact no

/-- On the empty input it is enough that both readings do the same and stay there. -/
theorem steady_zero {p q : Parse α} (same : ∀ s, s.pending = [] → q s = p s)
    (still : ∀ s, s.pending = [] →
      (leftover (p s)).pending = [] ∧ (leftover (p s)).finish = s.finish)
    (patient : ∀ s, s.pending = [] → Waits (p s)) : Steady 0 p q where
  forward s small := by
    have atEnd := List.eq_nil_of_length_eq_zero (Nat.le_zero.mp small)
    exact ⟨[], by rw [(still s atEnd).1, atEnd]; rfl⟩
  finish s small := (still s (List.eq_nil_of_length_eq_zero (Nat.le_zero.mp small))).2
  agrees s more small going := by
    have atEnd := List.eq_nil_of_length_eq_zero (Nat.le_zero.mp small)
    have none : more = [] := going.resolve_right fun o => o.1 atEnd
    rw [none, TokenStream.extend_nil, extendResult_nil, same s atEnd]
  patient := patient

theorem steady_current {n : Nat} {f g : Token → Parse α} (next : ∀ t, Steady n (f t) (g t)) :
    Steady n (current >>= f) (current >>= g) :=
  steady_current_bind (fun t => (next t).toExtends) fun t _ => (next t).patient

/-- A budget may be any that is enough for the tokens left. -/
theorem steady_remaining {n : Nat} {f g : Nat → Parse α}
    (next : ∀ m ≤ n, ∀ b c, m ≤ b → m ≤ c → Steady m (f b) (g c)) :
    Steady n (remaining >>= f) (remaining >>= g) where
  forward s small := by
    rw [bind_ok (remaining_apply s)]
    exact (next _ small _ _ (Nat.le_refl _) (Nat.le_refl _)).forward s (Nat.le_refl _)
  finish s small := by
    rw [bind_ok (remaining_apply s)]
    exact (next _ small _ _ (Nat.le_refl _) (Nat.le_refl _)).finish s (Nat.le_refl _)
  agrees s more small going := by
    rw [bind_ok (remaining_apply s)] at going ⊢
    rw [bind_ok (remaining_apply (s.extend more))]
    refine (next _ small _ _ (Nat.le_refl _) ?_).agrees s more (Nat.le_refl _) going
    simp [TokenStream.extend]
  patient s atEnd := by
    rw [bind_ok (remaining_apply s)]
    have empty : s.pending.length = 0 := by rw [atEnd]; rfl
    rw [empty]
    exact (next 0 (Nat.zero_le n) 0 0 (Nat.le_refl 0) (Nat.le_refl 0)).patient s atEnd

theorem steady_position {n : Nat} {f g : Position → Parse α} (next : ∀ p, Steady n (f p) (g p)) :
    Steady n (position >>= f) (position >>= g) :=
  steady_current fun t => next t.span.start

/-- A token that is read and judged by itself alone. -/
theorem extends_advance_bind_settle (n : Nat) (judge : Token → Except InputError α) :
    Extends n (advance >>= fun t => settle (judge t)) (advance >>= fun t => settle (judge t)) where
  forward s _ := by
    obtain ⟨w, split⟩ := forward_advance s
    rw [bind_ok (advance_apply s)]
    cases judge s.current <;> exact ⟨w, split⟩
  finish s _ := by
    rw [bind_ok (advance_apply s)]
    cases judge s.current <;> exact finish_advance s
  agrees s more _ going := by
    rcases going with rfl | ⟨some, _⟩
    · rw [TokenStream.extend_nil, extendResult_nil]
    · rw [bind_ok (advance_apply s), bind_ok (advance_apply (s.extend more)),
        TokenStream.current_extend more some, TokenStream.advance_extend more some]
      cases judge s.current <;> rfl

theorem steady_spanFrom {n : Nat} {f g : Span → Parse α} (start : Position)
    (next : ∀ span, Steady n (f span) (g span)) :
    Steady n (spanFrom start >>= f) (spanFrom start >>= g) where
  forward s small := (next (s.spanFrom start)).forward s small
  finish s small := (next (s.spanFrom start)).finish s small
  agrees s more small going := (next (s.spanFrom start)).agrees s more small going
  patient s atEnd := (next (s.spanFrom start)).patient s atEnd

theorem steady_node (n : Nat) (kind : SyntaxTree.Kind) (start : Position) (text : String)
    (children : List SyntaxTree) :
    Steady n (node kind start text children) (node kind start text children) :=
  steady_spanFrom start fun _ => steady_pure n _

theorem steady_expect (n : Nat) (kind : Token.Kind) : Steady n (expect kind) (expect kind) := by
  exact steady_current fun t => steady_ite _ (steady_advance n) (steady_unexpected n)

theorem steady_eat (n : Nat) (kind : Token.Kind) : Steady n (eat kind) (eat kind) := by
  have step := (steady_advance n).bind fun _ => steady_pure n true
  exact steady_current fun t => steady_ite _ step (steady_pure n false)

theorem eat_bind (kind : Token.Kind) (f : Bool → Parse α) :
    eat kind >>= f =
      current >>= fun t => if t.kind = kind then advance >>= fun _ => f true else f false := by
  unfold eat
  rw [bind_assoc]
  congr
  funext t
  split <;> rfl

/-- Where a token was eaten, what follows has one token less. -/
theorem steady_eat_then {n : Nat} {f g : Bool → Parse α} (kind : Token.Kind)
    (yes : Steady n (f true) (g true)) (no : Steady (n + 1) (f false) (g false)) :
    Steady (n + 1) (eat kind >>= f) (eat kind >>= g) := by
  rw [eat_bind, eat_bind]
  exact steady_current fun t => steady_ite _ (steady_advance_then fun _ => yes) no

theorem requireLevel_apply (level required : Level) (feature : String) (s : TokenStream) :
    requireLevel level required feature s =
      if required ≤ level then .ok () s
      else .error
        { cause := .featureNotEnabled feature required, position := s.current.span.start } s := by
  unfold requireLevel
  split <;> rfl

theorem extends_requireLevel (n : Nat) (level required : Level) (feature : String) :
    Extends n (requireLevel level required feature) (requireLevel level required feature) where
  forward s _ := by
    rw [requireLevel_apply]
    split <;> exact ⟨[], rfl⟩
  finish s _ := by
    rw [requireLevel_apply]
    split <;> rfl
  agrees s more _ going := by
    rcases going with rfl | ⟨some, _⟩
    · rw [TokenStream.extend_nil, extendResult_nil]
    · rw [requireLevel_apply, requireLevel_apply, TokenStream.current_extend more some]
      split <;> rfl

end Parse

end OpenExpr
