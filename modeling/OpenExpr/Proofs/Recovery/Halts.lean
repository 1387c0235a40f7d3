import OpenExpr.Proofs.Parse.Steady

namespace OpenExpr

namespace TokenStream

/-- The stream with what another one has left to read behind it. -/
def followedBy (s u : TokenStream) : TokenStream :=
  { u with pending := s.pending ++ u.pending, readTo := s.readTo }

/-- Both streams go on with the same semicolon. -/
def MeetAt (d : Token) (u v : TokenStream) : Prop :=
  d.kind = .semicolon ∧ (∃ rest, u.pending = d :: rest) ∧ ∃ rest, v.pending = d :: rest

variable {s u v : TokenStream} {d : Token}

theorem current_followedBy (some : s.pending ≠ []) : (s.followedBy u).current = s.current := by
  obtain ⟨t, rest, pending⟩ := List.exists_cons_of_ne_nil some
  simp [current, followedBy, pending]

theorem advance_followedBy (some : s.pending ≠ []) :
    (s.followedBy u).advance = s.advance.followedBy u := by
  obtain ⟨t, rest, pending⟩ := List.exists_cons_of_ne_nil some
  simp [advance, followedBy, pending]

theorem MeetAt.symm (meet : MeetAt d u v) : MeetAt d v u :=
  ⟨meet.1, meet.2.2, meet.2.1⟩

theorem MeetAt.current (meet : MeetAt d u v) (atEnd : s.pending = []) :
    (s.followedBy u).current = d := by
  obtain ⟨rest, next⟩ := meet.2.1
  simp [TokenStream.current, followedBy, atEnd, next]

theorem MeetAt.length (meet : MeetAt d u v) : s.pending.length < (s.followedBy u).pending.length := by
  obtain ⟨rest, next⟩ := meet.2.1
  simp [followedBy, next]

/-- At a semicolon nothing behind it has a say in what is wrong there. -/
theorem MeetAt.unexpected (meet : MeetAt d u v) :
    (s.followedBy u).unexpected = (s.followedBy v).unexpected := by
  obtain ⟨_, ⟨rest, next⟩, rest', next'⟩ := meet
  cases pending : s.pending <;> simp [TokenStream.unexpected, followedBy, pending, next, next']

theorem MeetAt.unexpectedDetailed (meet : MeetAt d u v) (expected : String) :
    (s.followedBy u).unexpectedDetailed expected = (s.followedBy v).unexpectedDetailed expected := by
  obtain ⟨_, ⟨rest, next⟩, rest', next'⟩ := meet
  cases pending : s.pending <;>
    simp [TokenStream.unexpectedDetailed, followedBy, pending, next, next']

end TokenStream

open TokenStream (MeetAt)

namespace Parse

variable {α β : Type} {l n : Nat}

/-- The second and the third result are in front of `u` and `v` what the first is by
itself. All three have the same value, or the second and the third the same fault. -/
def Stays (u v : TokenStream) : EStateM.Result InputError TokenStream α →
    EStateM.Result InputError TokenStream α → EStateM.Result InputError TokenStream α → Prop
  | .ok a t, x, y => x = .ok a (t.followedBy u) ∧ y = .ok a (t.followedBy v)
  | .error _ t, x, y => ∃ e, x = .error e (t.followedBy u) ∧ y = .error e (t.followedBy v)

/-- On inputs of `l` to `n` tokens `p` only moves forward. Where a semicolon follows, `q` and
`r` go no further than `p`, and what is behind the semicolon has no say in what they read. -/
structure Halts (l n : Nat) (p q r : Parse α) : Prop where
  shorter : ∀ s, l ≤ s.pending.length → s.pending.length ≤ n →
    (leftover (p s)).pending.length ≤ s.pending.length
  stays : ∀ s d u v, l ≤ s.pending.length → s.pending.length ≤ n → MeetAt d u v →
    Stays u v (p s) (q (s.followedBy u)) (r (s.followedBy v))

theorem Halts.mono {k m : Nat} {p q r : Parse α} (h : Halts l n p q r) (low : l ≤ k)
    (high : m ≤ n) : Halts k m p q r where
  shorter s some small := h.shorter s (Nat.le_trans low some) (Nat.le_trans small high)
  stays s d u v some small := h.stays s d u v (Nat.le_trans low some) (Nat.le_trans small high)

/-- An input is empty or has a token. -/
theorem Halts.join {p q r : Parse α} (empty : Halts 0 0 p q r) (some : Halts 1 n p q r) :
    Halts 0 n p q r where
  shorter s _ small := by
    rcases Nat.eq_zero_or_pos s.pending.length with none | one
    · exact empty.shorter s (Nat.zero_le _) (Nat.le_of_eq none)
    · exact some.shorter s one small
  stays s d u v _ small := by
    rcases Nat.eq_zero_or_pos s.pending.length with none | one
    · exact empty.stays s d u v (Nat.zero_le _) (Nat.le_of_eq none)
    · exact some.stays s d u v one small

theorem Halts.bind {p q r : Parse α} {f g h : α → Parse β} (first : Halts l n p q r)
    (next : ∀ a, Halts 0 n (f a) (g a) (h a)) : Halts l n (p >>= f) (q >>= g) (r >>= h) where
  shorter s some small := by
    have fewer := first.shorter s some small
    cases run : p s with
    | error e t =>
      rw [run] at fewer
      rw [bind_error run]
      exact fewer
    | ok a t =>
      rw [run] at fewer
      rw [bind_ok run]
      exact Nat.le_trans ((next a).shorter t (Nat.zero_le _) (Nat.le_trans fewer small)) fewer
  stays s d u v some small meet := by
    have fewer := first.shorter s some small
    have same := first.stays s d u v some small meet
    cases run : p s with
    | error e t =>
      rw [run] at same
      obtain ⟨e', left, right⟩ := same
      rw [bind_error run]
      exact ⟨e', bind_error left g, bind_error right h⟩
    | ok a t =>
      rw [run] at fewer same
      obtain ⟨left, right⟩ := same
      rw [bind_ok run, bind_ok left, bind_ok right]
      exact (next a).stays t d u v (Nat.zero_le _) (Nat.le_trans fewer small) meet

/-! Single steps. -/

theorem halts_pure (a : α) : Halts l n (pure a) (pure a) (pure a) where
  shorter _ _ _ := Nat.le_refl _
  stays _ _ _ _ _ _ _ := ⟨rfl, rfl⟩

/-- Nothing is done after a fault. -/
theorem halts_throw_bind (e : InputError) (f g h : α → Parse β) :
    Halts l n (throw e >>= f) (throw e >>= g) (throw e >>= h) where
  shorter _ _ _ := Nat.le_refl _
  stays _ _ _ _ _ _ _ := ⟨e, rfl, rfl⟩

theorem halts_throw (e : InputError) :
    Halts l n (throw e : Parse α) (throw e) (throw e) where
  shorter _ _ _ := Nat.le_refl _
  stays _ _ _ _ _ _ _ := ⟨e, rfl, rfl⟩

theorem halts_unexpected : Halts l n (unexpected : Parse α) unexpected unexpected where
  shorter _ _ _ := Nat.le_refl _
  stays s d u v _ _ meet := ⟨(s.followedBy u).unexpected, rfl, by rw [meet.unexpected]; rfl⟩

theorem halts_unexpectedDetailed_bind (expected : String) (f g h : α → Parse β) :
    Halts l n (unexpectedDetailed expected >>= f) (unexpectedDetailed expected >>= g)
      (unexpectedDetailed expected >>= h) where
  shorter _ _ _ := Nat.le_refl _
  stays s d u v _ _ meet :=
    ⟨(s.followedBy u).unexpectedDetailed expected, rfl, by rw [meet.unexpectedDetailed]; rfl⟩

theorem halts_unexpectedDetailed (expected : String) :
    Halts l n (unexpectedDetailed expected : Parse α) (unexpectedDetailed expected)
      (unexpectedDetailed expected) := by
  have step := halts_unexpectedDetailed_bind (l := l) (n := n) (β := α) expected pure pure pure
  rwa [bind_pure] at step

theorem halts_ite {p q r p' q' r' : Parse α} {c : Prop} [Decidable c] (yes : Halts l n p q r)
    (no : Halts l n p' q' r') :
    Halts l n (if c then p else p') (if c then q else q') (if c then r else r') := by
  split
  · exact yes
  · exact no

/-- Of an input that is not empty a token is taken, the same whatever follows. -/
theorem halts_advance_then {f g h : Token → Parse α} (next : ∀ t, Halts 0 n (f t) (g t) (h t)) :
    Halts 1 (n + 1) (advance >>= f) (advance >>= g) (advance >>= h) where
  shorter s some small := by
    obtain ⟨w, split⟩ := forward_advance s
    have fewer := (next s.current).shorter s.advance (Nat.zero_le _) (length_pending_advance small)
    rw [bind_ok (advance_apply s), split, List.length_append]
    omega
  stays s d u v some small meet := by
    have ne := List.ne_nil_of_length_pos some
    rw [bind_ok (advance_apply s), bind_ok (advance_apply (s.followedBy u)),
      bind_ok (advance_apply (s.followedBy v)), TokenStream.current_followedBy ne,
      TokenStream.current_followedBy ne, TokenStream.advance_followedBy ne,
      TokenStream.advance_followedBy ne]
    exact (next s.current).stays s.advance d u v (Nat.zero_le _) (length_pending_advance small) meet

theorem halts_advance : Halts 1 n advance advance advance := by
  have step := halts_advance_then (n := n) fun t => halts_pure t
  rw [bind_pure] at step
  exact step.mono (Nat.le_refl 1) (Nat.le_succ n)

/-- The next token is the same unless the input is empty. -/
theorem halts_current_some {f g h : Token → Parse α}
    (next : ∀ t, Halts 1 n (f t) (g t) (h t)) :
    Halts 1 n (current >>= f) (current >>= g) (current >>= h) where
  shorter s some small := by
    rw [bind_ok (current_apply s)]
    exact (next s.current).shorter s some small
  stays s d u v some small meet := by
    have ne := List.ne_nil_of_length_pos some
    rw [bind_ok (current_apply s), bind_ok (current_apply (s.followedBy u)),
      bind_ok (current_apply (s.followedBy v)), TokenStream.current_followedBy ne,
      TokenStream.current_followedBy ne]
    exact (next s.current).stays s d u v some small meet

/-- Where the input is empty the next token is its end. -/
theorem Halts.current_left {f : Token → Parse α} {q r : Parse α}
    (ended : ∀ t, t.kind = .endOfInput → Halts 0 0 (f t) q r) : Halts 0 0 (current >>= f) q r := by
  have here (s : TokenStream) (empty : s.pending.length ≤ 0) : Halts 0 0 (f s.current) q r :=
    ended _ (TokenStream.current_kind_of_end (List.eq_nil_of_length_eq_zero (Nat.le_zero.mp empty)))
  refine ⟨fun s some empty => ?_, fun s d u v some empty meet => ?_⟩
  · exact (here s empty).shorter s some empty
  · exact (here s empty).stays s d u v some empty meet

/-- Where the semicolon follows at once it is the next token. -/
theorem Halts.current_right {p : Parse α} {g h : Token → Parse α}
    (ended : ∀ d, d.kind = .semicolon → Halts 0 0 p (g d) (h d)) :
    Halts 0 0 p (current >>= g) (current >>= h) := by
  refine ⟨fun s => (ended ⟨.semicolon, "", s.finish.span⟩ rfl).shorter s,
    fun s d u v some empty meet => ?_⟩
  have atEnd := List.eq_nil_of_length_eq_zero (Nat.le_zero.mp empty)
  rw [bind_ok (current_apply (s.followedBy u)), bind_ok (current_apply (s.followedBy v)),
    meet.current atEnd, meet.symm.current atEnd]
  exact (ended d meet.1).stays s d u v some empty meet

theorem halts_current {f g h : Token → Parse α} (next : ∀ t, Halts 1 n (f t) (g t) (h t))
    (ended : ∀ t d, t.kind = .endOfInput → d.kind = .semicolon → Halts 0 0 (f t) (g d) (h d)) :
    Halts 0 n (current >>= f) (current >>= g) (current >>= h) :=
  .join (.current_left fun t finish => .current_right fun d semicolon => ended t d finish semicolon)
    (halts_current_some next)

theorem halts_position {f g h : Position → Parse α}
    (next : ∀ p, Halts 1 n (f p) (g p) (h p)) :
    Halts 1 n (position >>= f) (position >>= g) (position >>= h) :=
  halts_current_some fun t => next t.span.start

/-- In front of a semicolon there are more tokens left than without it. -/
theorem halts_remaining {f g h : Nat → Parse α}
    (next : ∀ m ≤ n, ∀ b c k, m ≤ b → m < c → m < k → Halts 0 m (f b) (g c) (h k)) :
    Halts 0 n (remaining >>= f) (remaining >>= g) (remaining >>= h) where
  shorter s _ small := by
    have enough := Nat.lt_succ_self s.pending.length
    rw [bind_ok (remaining_apply s)]
    exact (next _ small _ _ _ (Nat.le_refl _) enough enough).shorter s (Nat.zero_le _)
      (Nat.le_refl _)
  stays s d u v _ small meet := by
    rw [bind_ok (remaining_apply s), bind_ok (remaining_apply _), bind_ok (remaining_apply _)]
    exact (next _ small _ _ _ (Nat.le_refl _) meet.length meet.symm.length).stays s d u v
      (Nat.zero_le _) (Nat.le_refl _) meet

theorem halts_spanFrom {f g h : Span → Parse α} (start : Position)
    (next : ∀ span, Halts l n (f span) (g span) (h span)) :
    Halts l n (spanFrom start >>= f) (spanFrom start >>= g) (spanFrom start >>= h) where
  shorter s := (next (s.spanFrom start)).shorter s
  stays s := (next (s.spanFrom start)).stays s

theorem halts_node (kind : SyntaxTree.Kind) (start : Position) (text : String)
    (children : List SyntaxTree) : Halts l n (node kind start text children)
      (node kind start text children) (node kind start text children) :=
  halts_spanFrom start fun _ => halts_pure _

theorem Halts.eat_left {kind : Token.Kind} (other : kind ≠ .endOfInput) {f : Bool → Parse α}
    {q r : Parse α} (no : Halts 0 0 (f false) q r) : Halts 0 0 (eat kind >>= f) q r := by
  rw [eat_bind]
  refine .current_left fun t finish => ?_
  rwa [if_neg (finish ▸ other.symm)]

theorem Halts.eat_right {kind : Token.Kind} (other : kind ≠ .semicolon) {p : Parse α}
    {g h : Bool → Parse α} (no : Halts 0 0 p (g false) (h false)) :
    Halts 0 0 p (eat kind >>= g) (eat kind >>= h) := by
  rw [eat_bind, eat_bind]
  refine .current_right fun d semicolon => ?_
  have absent : d.kind ≠ kind := semicolon ▸ other.symm
  rwa [if_neg absent, if_neg absent]

theorem halts_expect (kind : Token.Kind) (finish : kind ≠ .endOfInput) (other : kind ≠ .semicolon) :
    Halts 0 n (expect kind) (expect kind) (expect kind) := by
  refine halts_current (fun t => halts_ite halts_advance halts_unexpected) fun t d ended semicolon => ?_
  rw [if_neg (ended ▸ finish.symm), if_neg (semicolon ▸ other.symm)]
  exact halts_unexpected

/-- Where a token was eaten, what follows has one token less. -/
theorem halts_eat_then {kind : Token.Kind} (finish : kind ≠ .endOfInput) (other : kind ≠ .semicolon)
    {f g h : Bool → Parse α} (yes : Halts 0 n (f true) (g true) (h true))
    (no : Halts 0 (n + 1) (f false) (g false) (h false)) :
    Halts 0 (n + 1) (eat kind >>= f) (eat kind >>= g) (eat kind >>= h) := by
  have none := no.mono (Nat.le_refl 0) (Nat.zero_le _)
  refine .join (.eat_left finish (.eat_right other none)) ?_
  rw [eat_bind, eat_bind, eat_bind]
  exact halts_current_some fun t => halts_ite (halts_advance_then fun _ => yes)
    (no.mono (Nat.zero_le 1) (Nat.le_refl _))

theorem halts_eat (kind : Token.Kind) (finish : kind ≠ .endOfInput) (other : kind ≠ .semicolon) :
    Halts 0 n (eat kind) (eat kind) (eat kind) := by
  have step := halts_eat_then (n := n) finish other (halts_pure true) (halts_pure false)
  rw [bind_pure] at step
  exact step.mono (Nat.le_refl 0) (Nat.le_succ n)

/-- A level that is asked for in front of a token is asked for there whatever follows. -/
theorem halts_requireLevel_then (level required : Level) (feature : String)
    {f g h : Unit → Parse α} (next : Halts 1 n (f ()) (g ()) (h ())) :
    Halts 1 n (requireLevel level required feature >>= f)
      (requireLevel level required feature >>= g) (requireLevel level required feature >>= h) := by
  by_cases allowed : required ≤ level
  · have run (s : TokenStream) : requireLevel level required feature s = .ok () s := by
      rw [requireLevel_apply, if_pos allowed]
    refine ⟨fun s => ?_, fun s d u v => ?_⟩
    · rw [bind_ok (run s)]
      exact next.shorter s
    · rw [bind_ok (run s), bind_ok (run _), bind_ok (run _)]
      exact next.stays s d u v
  · have run (s : TokenStream) : requireLevel level required feature s = .error
        { cause := .featureNotEnabled feature required, position := s.current.span.start } s := by
      rw [requireLevel_apply, if_neg allowed]
    refine ⟨fun s _ _ => ?_, fun s d u v some _ _ => ?_⟩
    · rw [bind_error (run s)]
      exact Nat.le_refl _
    · have ne := List.ne_nil_of_length_pos some
      rw [bind_error (run s), bind_error (run _), bind_error (run _),
        TokenStream.current_followedBy ne, TokenStream.current_followedBy ne]
      exact ⟨_, rfl, rfl⟩

/-- Induction on the number of tokens for which three budgets are enough. -/
theorem budget_induction {P : Nat → Nat → Nat → Nat → Prop} {limit : Nat}
    (ended : ∀ b c k, P 0 b (c + 1) (k + 1))
    (step : ∀ m < limit, ∀ b c k, P m b c k → P (m + 1) (b + 1) (c + 1) (k + 1)) :
    ∀ m ≤ limit, ∀ b c k, m ≤ b → m < c → m < k → P m b c k := by
  intro m
  induction m with
  | zero =>
    intro _ b c k _ enough enough'
    obtain ⟨c, rfl⟩ := Nat.exists_eq_add_of_le' enough
    obtain ⟨k, rfl⟩ := Nat.exists_eq_add_of_le' enough'
    exact ended b c k
  | succ m ih =>
    intro small b c k enough enough' enough''
    obtain ⟨b, rfl⟩ := Nat.exists_eq_add_of_le' (by omega : 1 ≤ b)
    obtain ⟨c, rfl⟩ := Nat.exists_eq_add_of_le' (by omega : 1 ≤ c)
    obtain ⟨k, rfl⟩ := Nat.exists_eq_add_of_le' (by omega : 1 ≤ k)
    exact step m small b c k (ih (by omega) b c k (by omega) (by omega) (by omega))

theorem halts_commaSeparated {p q r : Parse SyntaxTree} (item : Halts 0 n p q r) :
    ∀ m ≤ n, ∀ b c k, m ≤ b → m < c → m < k →
      Halts 0 m (commaSeparated p b) (commaSeparated q c) (commaSeparated r k) := by
  refine budget_induction (fun b c k => ?_) fun m small b c k later => ?_
  · have one := item.mono (Nat.le_refl 0) (Nat.zero_le n)
    cases b with
    | zero => exact one.bind fun first => .eat_right (by decide) (halts_pure _)
    | succ b => exact one.bind fun first => .eat_left (by decide) (.eat_right (by decide) (halts_pure _))
  · exact (item.mono (Nat.le_refl 0) small).bind fun first =>
      halts_eat_then (by decide) (by decide) (later.bind fun _ => halts_pure _) (halts_pure _)

end Parse

end OpenExpr
