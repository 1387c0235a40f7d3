import OpenExpr.Proofs.Grammar.Recognises

namespace OpenExpr

/-- The token that comes next where `tokens` are left. -/
def IsNext (tokens : List Token) (t : Token) : Prop :=
  tokens.head? = some t ∨ tokens = [] ∧ t.kind = .endOfInput

theorem IsNext.eq {t u : Token} {tokens : List Token} (next : IsNext (t :: tokens) u) : u = t := by
  rcases next with first | ⟨none, _⟩
  · exact (Option.some.inj first).symm
  · cases none

theorem TokenStream.isNext_current (s : TokenStream) : IsNext s.pending s.current := by
  cases pending : s.pending with
  | nil => exact .inr ⟨rfl, current_kind_of_end pending⟩
  | cons t rest => exact .inl (by rw [current_of_pending pending]; rfl)

theorem next_ne {t : Token} {kind kind' : Token.Kind} (tokens : List Token) (same : t.kind = kind)
    (other : kind ≠ kind') : ∀ u, IsNext (t :: tokens) u → u.kind ≠ kind' := by
  intro u next
  rw [next.eq, same]
  exact other

/-- Nothing in front of `rest` goes on into it: it starts with no operator and with
no parenthesis that opens. -/
def Stops (rest : List Token) : Prop :=
  ∀ t, IsNext rest t → t.kind ≠ .operator ∧ t.kind ≠ .openParen

theorem stops_nil : Stops [] := by
  rintro t (none | ⟨_, finish⟩)
  · cases none
  · rw [finish]
    decide

theorem stops_cons {t : Token} (rest : List Token) {kind : Token.Kind} (same : t.kind = kind)
    (stop : kind ≠ .operator ∧ kind ≠ .openParen) : Stops (t :: rest) := by
  intro u next
  rw [next.eq, same]
  exact stop

namespace Parse

variable {α β : Type} {good : α → Prop} {good' : β → Prop}

/-- In front of `rest`, `p` reads exactly the tokens `w`, and gives a good value. -/
def Reads (p : Parse α) (w rest : List Token) (good : α → Prop) : Prop :=
  ∀ s, s.pending = w ++ rest → ∃ a s', p s = .ok a s' ∧ s'.pending = rest ∧ good a

theorem Reads.bind {p : Parse α} {f : α → Parse β} {u v rest : List Token}
    (h : Reads p u (v ++ rest) good) (next : ∀ a, good a → Reads (f a) v rest good') :
    Reads (p >>= f) (u ++ v) rest good' := by
  intro s pending
  obtain ⟨a, s', run, left, value⟩ := h s (by rw [pending, List.append_assoc])
  rw [bind_ok run]
  exact next a value s' left

theorem Reads.imp {p : Parse α} {w rest : List Token} {better : α → Prop}
    (h : Reads p w rest better) (weaker : ∀ a, better a → good a) : Reads p w rest good := by
  intro s pending
  obtain ⟨a, s', run, left, value⟩ := h s pending
  exact ⟨a, s', run, left, weaker a value⟩

theorem reads_pure {a : α} {rest : List Token} (value : good a) :
    Reads (pure a) [] rest good :=
  fun s pending => ⟨a, s, rfl, pending, value⟩

theorem reads_done (a : α) (rest : List Token) : Reads (pure a) [] rest fun _ => True :=
  reads_pure trivial

/-- What ends by itself may come last. -/
theorem Reads.last {p : Parse α} {f : α → Parse β} {w rest : List Token} (h : Reads p w rest good)
    (next : ∀ a, good a → Reads (f a) [] rest good') : Reads (p >>= f) w rest good' := by
  simpa only [List.append_nil] using h.bind (v := []) next

theorem reads_advance {f : Token → Parse α} {t : Token} {w rest : List Token}
    (next : Reads (f t) w rest good) : Reads (advance >>= f) (t :: w) rest good := by
  intro s pending
  rw [bind_ok (advance_apply s), TokenStream.current_of_pending pending]
  exact next s.advance (TokenStream.pending_advance_of_pending pending)

theorem reads_current {f : Token → Parse α} {w rest : List Token}
    (next : ∀ t, IsNext (w ++ rest) t → Reads (f t) w rest good) :
    Reads (current >>= f) w rest good := by
  intro s pending
  rw [bind_ok (current_apply s)]
  exact next s.current (pending ▸ s.isNext_current) s pending

theorem reads_current_cons {f : Token → Parse α} {t : Token} {w rest : List Token}
    (next : Reads (f t) (t :: w) rest good) : Reads (current >>= f) (t :: w) rest good :=
  reads_current fun _ isNext => isNext.eq ▸ next

theorem reads_position {f : Position → Parse α} {w rest : List Token}
    (next : ∀ p, Reads (f p) w rest good) : Reads (position >>= f) w rest good :=
  reads_current fun t _ => next t.span.start

/-- The budget is large enough for the tokens that are read. -/
theorem reads_remaining {f : Nat → Parse α} {w rest : List Token}
    (next : ∀ n, w.length ≤ n → Reads (f n) w rest good) :
    Reads (remaining >>= f) w rest good := by
  intro s pending
  rw [bind_ok (remaining_apply s)]
  exact next s.pending.length (by simp [pending]) s pending

theorem reads_spanFrom {f : Span → Parse α} {start : Position} {w rest : List Token}
    (next : ∀ span, Reads (f span) w rest good) : Reads (spanFrom start >>= f) w rest good :=
  fun s pending => next (s.spanFrom start) s pending

theorem reads_node (kind : SyntaxTree.Kind) (start : Position) (text : String)
    (children : List SyntaxTree) (rest : List Token) :
    Reads (node kind start text children) [] rest fun _ => True :=
  reads_spanFrom fun _ => reads_done _ rest

theorem reads_expect {t : Token} {kind : Token.Kind} (same : t.kind = kind) (rest : List Token) :
    Reads (expect kind) [t] rest fun a => a = t := by
  refine reads_current_cons ?_
  rw [if_pos same]
  exact reads_advance (f := pure) (reads_pure rfl)

theorem reads_eat {f : Bool → Parse α} {t : Token} {kind : Token.Kind} {w rest : List Token}
    (same : t.kind = kind) (next : Reads (f true) w rest good) :
    Reads (eat kind >>= f) (t :: w) rest good := by
  rw [eat_bind]
  refine reads_current_cons ?_
  rw [if_pos same]
  exact reads_advance next

theorem reads_eat_other {f : Bool → Parse α} {kind : Token.Kind} {w rest : List Token}
    (other : ∀ t, IsNext (w ++ rest) t → t.kind ≠ kind) (next : Reads (f false) w rest good) :
    Reads (eat kind >>= f) w rest good := by
  rw [eat_bind]
  refine reads_current fun t isNext => ?_
  rw [if_neg (other t isNext)]
  exact next

/-- Items are read one by one if each is read in front of what may follow it. -/
theorem reads_commaSeparated {item : Parse SyntaxTree} {L : List Token → Prop} {n : Nat}
    {level : Level}
    (each : ∀ w rest, L w → w.length < n → AllLexed level w → Stops rest →
      Reads item w rest fun _ => True) {w rest : List Token} (separated : CommaSeparated L w)
    (stop : Stops rest) (noComma : ∀ t, IsNext rest t → t.kind ≠ .comma) :
    w.length < n → AllLexed level w → ∀ budget, w.length ≤ budget →
      Reads (commaSeparated item budget) w rest fun _ => True := by
  induction separated with
  | @one w inL =>
    intro small lexed budget _
    have item := each w rest inL small lexed stop
    cases budget with
    | zero => exact item.last fun first _ => reads_done [first] rest
    | succ budget =>
      exact item.last fun first _ => reads_eat_other noComma (reads_done [first] rest)
  | @more w d ws inL comma _ ih =>
    intro small lexed budget enough
    rw [List.length_append, List.length_cons] at small enough
    obtain ⟨budget, rfl⟩ := Nat.exists_eq_add_of_le' (by omega : 1 ≤ budget)
    have front : AllLexed level w := (List.forall_mem_append.mp lexed).1
    have back : AllLexed level ws := lexed.right.tail
    have item := each w (d :: (ws ++ rest)) inL (by omega) front (stops_cons _ comma (by decide))
    refine item.bind (v := d :: ws) fun first _ => reads_eat comma ?_
    exact (ih (by omega) back budget (by omega)).last fun others _ => reads_done (first :: others) rest

end Parse

end OpenExpr
