import OpenExpr.Proofs.Grammar.HeaderCompleteness
import OpenExpr.Proofs.Recovery.Rounds

namespace OpenExpr

open Parse

namespace OperatorTable

/-- No operator of the table has a power that wraps around. -/
def IsBounded (t : OperatorTable) : Prop :=
  ∀ c op, t.infixOp? c = some op → op.IsBounded

theorem isBounded_empty : empty.IsBounded := by
  intro c op known side
  unfold infixOp? at known
  cases builtIn : BuiltIn.ofSymbol? c with
  | none => simp [builtIn, empty] at known
  | some b =>
    rw [builtIn] at known
    cases known
    cases b <;> decide

theorem IsBounded.register {t : OperatorTable} (bounded : t.IsBounded) {precedence : Int32}
    (within : precedence < Int32.maxValue) (symbol : Char) (fixity : Fixity) :
    (t.register symbol fixity precedence).IsBounded := by
  intro c op known side
  rcases infixOp?_register known with old | same
  · exact bounded c op old side
  · rw [same]
    exact within

end OperatorTable

namespace Grammar

variable {α β : Type} {P : α → Prop} {Q : β → Prop}

/-- What was read satisfies `P`. -/
def Returns (P : α → Prop) (p : Parse α) : Prop :=
  ∀ s a s', p s = .ok a s' → P a

theorem Returns.bind {p : Parse α} {f : α → Parse β} (h : Returns P p) (next : ∀ a, P a → Returns Q (f a)) :
    Returns Q (p >>= f) := by
  intro s b s'' run
  obtain ⟨a, s', first, second⟩ := bind_eq_ok run
  exact next a (h s a s' first) s' b s'' second

theorem Returns.after (p : Parse α) {f : α → Parse β} (next : ∀ a, Returns Q (f a)) : Returns Q (p >>= f) :=
  Returns.bind (P := fun _ => True) (fun _ _ _ _ => trivial) fun a _ => next a

theorem returns_pure {a : α} (good : P a) : Returns P (pure a) := by
  rintro s _ _ ⟨⟩
  exact good

theorem returns_throw (e : InputError) : Returns P (throw e) := by
  rintro s _ _ ⟨⟩

/-- Whatever a header gives its operator, given or by default, is far from the greatest
precedence. -/
theorem returns_precedence {usual : Int32} (within : usual < Int32.maxValue) :
    Returns (· < Int32.maxValue) (precedence usual) := by
  refine .after _ fun t => ?_
  split
  · refine .after _ fun t => ?_
    split
    · rename_i n given
      refine returns_pure (Int32.lt_of_le_of_lt (precedence?_eq_some given).2.2 (by decide))
    · exact returns_throw _
  · exact returns_pure within

theorem returns_unaryPrototype : Returns (fun a => a.2.precedence < Int32.maxValue) unaryPrototype := by
  refine .after _ fun _ => .after _ fun _ => (returns_precedence (by decide)).bind fun n within => ?_
  exact .after _ fun _ => .after _ fun _ => .after _ fun _ => .after _ fun _ => returns_pure within

theorem returns_binaryPrototype : Returns (fun a => a.2.precedence < Int32.maxValue) binaryPrototype := by
  rw [binaryPrototype_eq]
  refine .after _ fun _ => .after _ fun _ => (returns_precedence (by decide)).bind fun n within => ?_
  exact .after _ fun _ => .after _ fun _ => .after _ fun _ => .after _ fun _ => .after _ fun _ =>
    .after _ fun _ => returns_pure within

theorem returns_prototype : Returns (fun a => ∀ op ∈ a.2, op.precedence < Int32.maxValue) prototype := by
  refine .after _ fun t => ?_
  split
  · exact .after _ fun _ => returns_pure nofun
  · exact returns_unaryPrototype.bind fun a within => returns_pure (by simpa using within)
  · exact returns_binaryPrototype.bind fun a within => returns_pure (by simpa using within)
  · exact fun _ _ _ run => by cases run

theorem precedence_lt_of_headerOperator? {s : TokenStream} {op : OperatorDefinition}
    (found : headerOperator? s = some op) : op.precedence < Int32.maxValue := by
  unfold headerOperator? at found
  cases run : prototype s with
  | error e s' => simp [run] at found
  | ok a s' =>
    rw [run] at found
    exact returns_prototype s a s' run op found

theorem precedence_lt_of_introduced? {s : TokenStream} {op : OperatorDefinition}
    (found : introduced? s = some op) : op.precedence < Int32.maxValue := by
  unfold introduced? at found
  split at found
  · exact precedence_lt_of_headerOperator? found
  · exact precedence_lt_of_headerOperator? found
  · cases found

/-- A statement leaves no operator behind whose power wraps around. -/
theorem isBounded_introduce {g : Grammar} (bounded : g.operators.IsBounded) (s : TokenStream) :
    (g.introduce (introduced? s)).operators.IsBounded := by
  cases found : introduced? s with
  | none => exact bounded
  | some op => exact bounded.register (precedence_lt_of_introduced? found) op.symbol op.fixity

end Grammar

end OpenExpr
