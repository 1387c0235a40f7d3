import OpenExpr.Proofs.Grammar.Derivation
import OpenExpr.Proofs.Grammar.Reads

namespace OpenExpr

open Parse

namespace Grammar

variable (g : Grammar) {e : Int32 → Parse SyntaxTree} {rest : List Token}

theorem reads_constant {t : Token} (numeral : (Decimal.Numeral.ofText? t.text).isSome = true)
    (rest : List Token) : Reads constant [t] rest fun _ => True := by
  refine reads_advance ?_
  rw [if_pos numeral]
  exact reads_done _ rest

theorem reads_reference {t : Token} (noCall : ∀ t, IsNext rest t → t.kind ≠ .openParen) :
    Reads (nameOrCall e) [t] rest
      fun tree => tree = { kind := .reference, span := t.span, text := t.text } := by
  refine reads_advance (reads_current fun t isNext => ?_)
  rw [if_neg (noCall t isNext)]
  exact reads_pure rfl

theorem reads_callEmpty {f l r : Token} (opened : l.kind = .openParen) (closed : r.kind = .closeParen)
    (rest : List Token) : Reads (nameOrCall e) [f, l, r] rest fun _ => True := by
  refine reads_advance (reads_current_cons ?_)
  rw [if_pos opened]
  refine reads_advance (reads_current_cons ?_)
  rw [if_pos closed]
  exact (reads_done [] _).bind (v := [r]) fun _ _ =>
    (reads_expect closed rest).last fun _ _ => reads_node _ _ _ _ rest

theorem reads_call {f l r : Token} {w : List Token} (opened : l.kind = .openParen)
    (closed : r.kind = .closeParen) (some : ∀ t, IsNext (w ++ r :: rest) t → t.kind ≠ .closeParen)
    (arguments : ∀ budget, w.length ≤ budget →
      Reads (commaSeparated (e 0) budget) w (r :: rest) fun _ => True) :
    Reads (nameOrCall e) (f :: l :: (w ++ [r])) rest fun _ => True := by
  refine reads_advance (reads_current_cons ?_)
  rw [if_pos opened]
  refine reads_advance (reads_current fun t isNext => ?_)
  rw [List.append_assoc] at isNext
  rw [if_neg (some t isNext)]
  refine reads_remaining fun budget enough => ?_
  rw [List.length_append] at enough
  exact (arguments budget (by omega)).bind (v := [r]) fun _ _ =>
    (reads_expect closed rest).last fun _ _ => reads_node _ _ _ _ rest

theorem reads_parenthesised {l r : Token} {w : List Token} (closed : r.kind = .closeParen)
    (inner : Reads (e 0) w (r :: rest) fun _ => True) :
    Reads (parenthesised e) (l :: (w ++ [r])) rest fun _ => True :=
  reads_advance (inner.bind (v := [r]) fun _ _ =>
    (reads_expect closed rest).last fun _ _ => reads_node _ _ _ _ rest)

theorem reads_conditional {i t o : Token} {a b c : List Token} (thenWord : t.kind = .keyword .thenWord)
    (elseWord : o.kind = .keyword .elseWord)
    (condition : Reads (e 0) a (t :: (b ++ o :: c) ++ rest) fun _ => True)
    (yes : Reads (e 0) b (o :: c ++ rest) fun _ => True)
    (no : Reads (e 0) c rest fun _ => True) :
    Reads (conditional e) (i :: (a ++ t :: (b ++ o :: c))) rest fun _ => True :=
  reads_advance (condition.bind fun _ _ =>
    (reads_expect thenWord _).bind (v := b ++ o :: c) fun _ _ => yes.bind fun _ _ =>
    (reads_expect elseWord _).bind (v := c) fun _ _ =>
    no.last fun _ _ => reads_node _ _ _ _ rest)

/-- How a loop may end behind its condition: with its body, or with a step before it. -/
def ReadsLoopEnd (e : Int32 → Parse SyntaxTree) (v rest : List Token) : Prop :=
  (∃ i c, v = i :: c ∧ i.kind = .keyword .inWord ∧ Reads (e 0) c rest fun _ => True) ∨
  ∃ d s i c, v = d :: (s ++ i :: c) ∧ d.kind = .comma ∧ i.kind = .keyword .inWord ∧
    (Reads (e 0) s (i :: c ++ rest) fun _ => True) ∧ Reads (e 0) c rest fun _ => True

theorem reads_forLoop {f x q d : Token} {a b v : List Token} (name : x.kind = .identifier)
    (assign : q.symbol? = some '=') (comma : d.kind = .comma)
    (start : Reads (e 0) a (d :: (b ++ v) ++ rest) fun _ => True)
    (test : Reads (e 0) b (v ++ rest) fun _ => True) (finish : ReadsLoopEnd e v rest) :
    Reads (forLoop e) (f :: x :: q :: (a ++ d :: (b ++ v))) rest fun _ => True := by
  have body (initializer condition : SyntaxTree) (step : List SyntaxTree) {i : Token}
      {c : List Token} (inWord : i.kind = .keyword .inWord) (read : Reads (e 0) c rest fun _ => True) :=
    (reads_expect inWord _).bind (v := c) fun _ _ => read.last fun body _ =>
      reads_node .forLoop f.span.start "" ([initializer, condition] ++ step ++ [body]) rest
  refine reads_advance ((reads_expect name _).bind (v := q :: (a ++ d :: (b ++ v))) fun _ _ => ?_)
  refine reads_current_cons ?_
  rw [if_pos (Token.isOperator_iff.mpr assign)]
  refine reads_advance (start.bind fun _ _ => ?_)
  refine (reads_node _ _ _ _ _).bind (v := d :: (b ++ v)) fun initializer _ => ?_
  refine (reads_expect comma _).bind (v := b ++ v) fun _ _ => test.bind fun condition _ => ?_
  rcases finish with ⟨i, c, rfl, inWord, read⟩ | ⟨d, s, i, c, rfl, comma, inWord, step, read⟩
  · exact reads_eat_other (next_ne _ inWord (by decide)) ((reads_done [] _).bind (v := i :: c)
      fun step _ => body initializer condition step inWord read)
  · exact reads_eat comma (step.bind fun step _ => (reads_done [step] _).bind (v := i :: c)
      fun step _ => body initializer condition step inWord read)

theorem reads_initializerBare {x : Token} (name : x.kind = .identifier)
    (noValue : ∀ t, IsNext rest t → t.kind ≠ .operator) :
    Reads (initializer e) [x] rest fun _ => True := by
  refine (reads_expect name rest).last fun _ _ => reads_current fun t isNext => ?_
  have other : t.isOperator '=' ≠ true := by
    rw [Token.isOperator, Token.symbol?_eq_none_of_kind (noValue t isNext)]
    decide
  rw [if_neg other]
  exact (reads_done [] rest).last fun _ _ => reads_node _ _ _ _ rest

theorem reads_initializerValue {x q : Token} {w : List Token} (name : x.kind = .identifier)
    (assign : q.symbol? = some '=') (value : Reads (e 0) w rest fun _ => True) :
    Reads (initializer e) (x :: q :: w) rest fun _ => True := by
  refine (reads_expect name _).bind (v := q :: w) fun _ _ => reads_current_cons ?_
  rw [if_pos (Token.isOperator_iff.mpr assign)]
  exact reads_advance (value.last fun tree _ => (reads_done [tree] rest).last fun _ _ =>
    reads_node _ _ _ _ rest)

theorem reads_varIn {v i : Token} {w c : List Token} (inWord : i.kind = .keyword .inWord)
    (bindings : ∀ budget, w.length ≤ budget →
      Reads (commaSeparated (initializer e) budget) w (i :: c ++ rest) fun _ => True)
    (body : Reads (e 0) c rest fun _ => True) :
    Reads (varIn e) (v :: (w ++ i :: c)) rest fun _ => True := by
  refine reads_advance (reads_remaining fun budget enough => ?_)
  rw [List.length_append] at enough
  exact (bindings budget (by omega)).bind fun _ _ =>
    (reads_expect inWord _).bind (v := c) fun _ _ =>
    body.last fun _ _ => reads_node _ _ _ _ rest

end Grammar

end OpenExpr
