import OpenExpr.Proofs.Grammar.Completeness

namespace OpenExpr

open Parse

namespace Parse

theorem expect_extend {kind : Token.Kind} {s s' : TokenStream} {t : Token} (more : List Token)
    (some : s.pending ≠ []) (run : expect kind s = .ok t s') :
    expect kind (s.extend more) = .ok t (s'.extend more) := by
  unfold expect at run ⊢
  rw [bind_ok (current_apply _)] at run ⊢
  rw [TokenStream.current_extend more some]
  split at run
  · rename_i same
    rw [if_pos same, advance_apply, TokenStream.current_extend more some,
      TokenStream.advance_extend more some]
    cases run
    rfl
  · cases run

theorem expect_kind {kind : Token.Kind} {s s' : TokenStream} {t : Token}
    (run : expect kind s = .ok t s') : s.current.kind = kind := by
  unfold expect at run
  rw [bind_ok (current_apply _)] at run
  split at run
  · assumption
  · cases run

/-- What ends with a parenthesis does not look behind it. -/
theorem closed_extend {α : Type} {front : Parse α} (steady : ∀ n, Extends n front front)
    {kind : SyntaxTree.Kind} {start : Position} {text : String} {children : α → List SyntaxTree}
    {s s' : TokenStream} {t : SyntaxTree} (more : List Token)
    (run : (front >>= fun a => expect .closeParen >>= fun _ =>
      node kind start text (children a)) s = .ok t s') :
    (front >>= fun a => expect .closeParen >>= fun _ => node kind start text (children a))
      (s.extend more) = .ok t (s'.extend more) := by
  obtain ⟨a, u, runFront, run⟩ := bind_eq_ok run
  obtain ⟨closing, v, runClosing, run⟩ := bind_eq_ok run
  have some : u.pending ≠ [] := by
    intro atEnd
    have wrong := expect_kind runClosing
    rw [TokenStream.current_kind_of_end atEnd] at wrong
    cases wrong
  obtain ⟨w, split⟩ := (steady s.pending.length).forward s (Nat.le_refl _)
  rw [runFront] at split
  have going : s.pending ≠ [] := by
    rw [split]
    exact fun nothing => some (List.append_eq_nil_iff.mp nothing).2
  have front' := (steady s.pending.length).agrees s more (Nat.le_refl _) (.inr ⟨going, by
    rw [runFront]
    exact some⟩)
  rw [runFront] at front'
  rw [bind_ok front', bind_ok (expect_extend more some runClosing)]
  cases run
  rfl

end Parse

namespace Grammar

variable {g : Grammar}

theorem parenthesised_extend {s s' : TokenStream} {t : SyntaxTree} (more : List Token)
    (some : s.pending ≠ []) (run : parenthesised g.expr s = .ok t s') :
    parenthesised g.expr (s.extend more) = .ok t (s'.extend more) := by
  unfold parenthesised at run ⊢
  rw [bind_ok (advance_apply _)] at run ⊢
  rw [TokenStream.current_extend more some, TokenStream.advance_extend more some]
  exact closed_extend (fun n => (g.steady_expr n 0).toExtends) more run

theorem constant_extend {s s' : TokenStream} {t : SyntaxTree} (more : List Token)
    (some : s.pending ≠ []) (run : constant s = .ok t s') :
    constant (s.extend more) = .ok t (s'.extend more) := by
  unfold constant at run ⊢
  rw [bind_ok (advance_apply _)] at run ⊢
  rw [TokenStream.current_extend more some, TokenStream.advance_extend more some]
  split at run
  · rename_i numeral
    rw [if_pos numeral]
    cases run
    rfl
  · cases run

/-- What stands between the parentheses of a call. -/
def arguments (g : Grammar) : Parse (List SyntaxTree) := do
  if (← current).kind = .closeParen then
    return []
  else
    commaSeparated (g.expr 0) (← remaining)

theorem steady_arguments (n : Nat) : Steady n g.arguments g.arguments :=
  steady_current fun _ => steady_ite _ (steady_pure n [])
    (steady_remaining (steady_commaSeparated (g.steady_expr n 0)))

theorem nameOrCall_expr :
    nameOrCall g.expr = do
      let name ← advance
      if (← current).kind = .openParen then
        let _ ← advance
        let arguments ← g.arguments
        let _ ← expect .closeParen
        node .functionCall name.span.start name.text arguments
      else
        return { kind := .reference, span := name.span, text := name.text } := by
  unfold nameOrCall arguments
  congr 1
  funext name
  congr 1
  funext t
  split
  · congr 1
    funext _
    rw [bind_assoc]
    congr 1
    funext t
    split <;> simp only [bind_assoc, pure_bind]
  · rfl

/-- A name is read alike unless it turns into the name of a call. -/
theorem nameOrCall_extend {s s' : TokenStream} {t : SyntaxTree} {more : List Token}
    (some : s.pending ≠ []) (noCall : ∀ t, IsNext more t → t.kind ≠ .openParen)
    (run : nameOrCall g.expr s = .ok t s') :
    nameOrCall g.expr (s.extend more) = .ok t (s'.extend more) := by
  rw [nameOrCall_expr] at run ⊢
  rw [bind_ok (advance_apply _), bind_ok (current_apply _)] at run ⊢
  rw [TokenStream.current_extend more some, TokenStream.advance_extend more some]
  by_cases opened : s.advance.current.kind = .openParen
  · have some' : s.advance.pending ≠ [] := by
      intro atEnd
      rw [TokenStream.current_kind_of_end atEnd] at opened
      cases opened
    rw [if_pos opened, bind_ok (advance_apply _)] at run
    rw [TokenStream.current_extend more some', if_pos opened, bind_ok (advance_apply _),
      TokenStream.advance_extend more some']
    exact closed_extend (fun n => (steady_arguments n).toExtends) more run
  · have opened' : (s.advance.extend more).current.kind ≠ .openParen := by
      by_cases pending : s.advance.pending = []
      · have all : (s.advance.extend more).pending = more := by simp [TokenStream.extend, pending]
        have next := (s.advance.extend more).isNext_current
        rw [all] at next
        exact noCall _ next
      · rwa [TokenStream.current_extend more pending]
    rw [if_neg opened] at run
    rw [if_neg opened']
    cases run
    rfl

end Grammar

/-- The token starts a number, a name, a call or an expression in parentheses. -/
def Token.StartsClosed (t : Token) : Prop :=
  t.kind = .number ∨ t.kind = .identifier ∨ t.kind = .openParen

/-- The tokens are a number, a name, a call or an expression in parentheses, which is
read by itself as the tree. -/
structure Grammar.IsClosedOperand (g : Grammar) (w : List Token) (t : SyntaxTree) : Prop where
  starts : ∃ first, w.head? = some first ∧ first.StartsClosed
  alone : Reads g.primary w [] fun tree => tree = t

namespace Grammar

variable {g : Grammar}

theorem isClosedOperand_reference {t : Token} (full : g.isBare = false) (name : t.kind = .identifier) :
    g.IsClosedOperand [t] { kind := .reference, span := t.span, text := t.text } where
  starts := ⟨t, rfl, .inr (.inl name)⟩
  alone := reads_primary full name (reads_reference fun u next => (stops_nil u next).2)

theorem isBare_of_primary {s s' : TokenStream} {t : SyntaxTree} (run : g.primary s = .ok t s') :
    g.isBare = false := by
  unfold primary primaryWith at run
  split at run
  · cases run
  · simpa using ‹¬ g.isBare = true›

theorem primary_extend {s s' : TokenStream} {t : SyntaxTree} {more : List Token}
    (some : s.pending ≠ []) (closed : s.current.StartsClosed)
    (noCall : ∀ t, IsNext more t → t.kind ≠ .openParen) (run : g.primary s = .ok t s') :
    g.primary (s.extend more) = .ok t (s'.extend more) := by
  have full := isBare_of_primary run
  rw [primary_apply full] at run ⊢
  rw [TokenStream.current_extend more some]
  rcases closed with kind | kind | kind
  · rw [kind] at run ⊢
    exact constant_extend more some run
  · rw [kind] at run ⊢
    exact nameOrCall_extend some noCall run
  · rw [kind] at run ⊢
    exact parenthesised_extend more some run

/-- Such an operand is read the same wherever no parenthesis comes behind it. -/
theorem IsClosedOperand.reads {w rest : List Token} {t : SyntaxTree} (closed : g.IsClosedOperand w t)
    (noCall : ∀ t, IsNext rest t → t.kind ≠ .openParen) :
    Reads g.operand w rest fun tree => tree = t := by
  obtain ⟨first, head, starts⟩ := closed.starts
  obtain ⟨w, rfl⟩ : ∃ w', w = first :: w' := by
    cases w with
    | nil => cases head
    | cons t w =>
      cases head
      exact ⟨w, rfl⟩
  have plain : first.kind ≠ .operator := by
    rcases starts with kind | kind | kind <;> rw [kind] <;> decide
  refine reads_operand plain fun s pending => ?_
  obtain ⟨tree, s', run, left, same⟩ := closed.alone { s with pending := first :: w } (by simp)
  have whole : s = TokenStream.extend { s with pending := first :: w } rest := by
    cases s
    simp only [TokenStream.extend]
    rw [← pending]
  have read := primary_extend (s := { s with pending := first :: w }) (by simp) starts noCall run
  rw [← whole] at read
  exact ⟨tree, s'.extend rest, read, by simp [TokenStream.extend, left], same⟩

end Grammar

end OpenExpr
