import OpenExpr.Proofs.Grammar.Acceptance

namespace OpenExpr

open Parse

/-- None of the tokens ends a statement. -/
def HasNoSemicolon (w : List Token) : Prop :=
  ∀ t ∈ w, t.kind ≠ .semicolon

namespace HasNoSemicolon

variable {v w : List Token}

theorem nil : HasNoSemicolon [] := by
  simp [HasNoSemicolon]

@[simp]
theorem cons_iff {t : Token} : HasNoSemicolon (t :: w) ↔ t.kind ≠ .semicolon ∧ HasNoSemicolon w :=
  List.forall_mem_cons

@[simp]
theorem append_iff : HasNoSemicolon (v ++ w) ↔ HasNoSemicolon v ∧ HasNoSemicolon w :=
  List.forall_mem_append

/-- Only one beginning of a list ends in front of its first semicolon. -/
theorem split {d e : Token} {rest rest' : List Token} (first : HasNoSemicolon v)
    (second : HasNoSemicolon w) (semicolon : d.kind = .semicolon) (semicolon' : e.kind = .semicolon)
    (same : v ++ d :: rest = w ++ e :: rest') : v = w ∧ d = e ∧ rest = rest' := by
  induction v generalizing w with
  | nil =>
    cases w with
    | nil => exact ⟨rfl, List.cons.inj same⟩
    | cons t w => exact absurd ((List.cons.inj same).1 ▸ semicolon) (cons_iff.mp second).1
  | cons t v ih =>
    cases w with
    | nil => exact absurd ((List.cons.inj same).1 ▸ semicolon') (cons_iff.mp first).1
    | cons u w =>
      obtain ⟨rfl, later⟩ := List.cons.inj same
      obtain ⟨rfl, others⟩ := ih (cons_iff.mp first).2 (cons_iff.mp second).2 later
      exact ⟨rfl, others⟩

end HasNoSemicolon

theorem Token.ne_semicolon_of_symbol? {t : Token} {symbol : Char} (operator : t.symbol? = some symbol) :
    t.kind ≠ .semicolon := by
  simp [kind_of_symbol? operator]

/-- No semicolon stands in an expression. -/
theorem Derives.hasNoSemicolon {level : Level} {isPrefix : Char → Prop} {phrase : Phrase}
    {w : List Token} (derived : Derives level isPrefix phrase w) : HasNoSemicolon w := by
  induction derived with
  | chainNext operator =>
    simp_all [operator.1]
  | _ => simp_all [HasNoSemicolon.nil, Token.ne_semicolon_of_symbol?]

theorem DerivesParameters.hasNoSemicolon {w : List Token} (derived : DerivesParameters w) :
    HasNoSemicolon w := by
  induction derived <;> simp_all [HasNoSemicolon.nil]

theorem DerivesPrecedence.hasNoSemicolon {w : List Token} (derived : DerivesPrecedence w) :
    HasNoSemicolon w := by
  cases derived <;> simp_all [HasNoSemicolon.nil]

theorem DerivesHeader.hasNoSemicolon {introduced : Option Char} {w : List Token}
    (derived : DerivesHeader introduced w) : HasNoSemicolon w := by
  cases derived with
  | function _ _ _ names =>
    have := names.hasNoSemicolon
    simp_all [HasNoSemicolon.nil]
  | unary _ operator precedence =>
    have := precedence.hasNoSemicolon
    simp_all [HasNoSemicolon.nil, Token.ne_semicolon_of_symbol? operator]
  | binary _ operator _ precedence =>
    have := precedence.hasNoSemicolon
    simp_all [HasNoSemicolon.nil, Token.ne_semicolon_of_symbol? operator]
  | binaryComma _ operator _ precedence =>
    have := precedence.hasNoSemicolon
    simp_all [HasNoSemicolon.nil, Token.ne_semicolon_of_symbol? operator]

/-- No semicolon stands in a statement. -/
theorem DerivesUnit.hasNoSemicolon {level : Level} {isPrefix : Char → Prop} {w : List Token}
    (derived : DerivesUnit level isPrefix w) : HasNoSemicolon w := by
  cases derived with
  | definition word header body =>
    simp [word, header.hasNoSemicolon, body.hasNoSemicolon]
  | declaration word header => simp [word, header.hasNoSemicolon]
  | expression body => exact body.hasNoSemicolon

namespace Grammar

variable {g : Grammar} {s s' : TokenStream} {a : SyntaxTree × Option OperatorDefinition}

/-- A statement with a semicolon behind it is read up to the semicolon. -/
theorem pending_of_statement (lexed : AllLexed g.level s.pending) (run : g.statement s = .ok a s')
    {w rest : List Token} {d : Token} (pending : s.pending = w ++ d :: rest) (free : HasNoSemicolon w)
    (semicolon : d.kind = .semicolon) (behind : s'.current.kind = .semicolon) :
    s'.pending = d :: rest := by
  have takes := g.recognises_statement.takes s lexed
  rw [run] at takes
  obtain ⟨v, split, derived⟩ := takes
  cases left : s'.pending with
  | nil =>
    rw [TokenStream.current_kind_of_end left] at behind
    cases behind
  | cons e rest' =>
    rw [TokenStream.current_of_pending left] at behind
    rw [pending, left] at split
    obtain ⟨-, rfl, rfl⟩ := free.split derived.hasNoSemicolon semicolon behind split
    rfl

theorem finish_of_statement (run : g.statement s = .ok a s') : s'.finish = s.finish := by
  have same := (g.steady_statement _).finish s (Nat.le_refl _)
  rwa [run] at same

/-- A statement does not wait behind its semicolon. -/
theorem not_waits_statement (lexed : AllLexed g.level s.pending)
    (ended : ¬ HasNoSemicolon s.pending) : ¬ Waits (g.statement s) := by
  have takes := g.recognises_statement.takes s lexed
  intro waits
  cases run : g.statement s with
  | ok a s' =>
    rw [run] at takes waits
    obtain ⟨v, split, derived⟩ := takes
    rw [show s'.pending = [] from waits, List.append_nil] at split
    exact ended (split ▸ derived.hasNoSemicolon)
  | error e s' =>
    rw [run] at takes waits
    obtain ⟨a, more, _, derived⟩ := takes waits
    exact ended (HasNoSemicolon.append_iff.mp derived.hasNoSemicolon).1

/-- A statement with a semicolon behind it is read by itself as it is read in front of
others. -/
theorem single_of_statement (lexed : AllLexed g.level s.pending) {w rest : List Token} {d : Token}
    (pending : s.pending = w ++ [d]) (free : HasNoSemicolon w) (semicolon : d.kind = .semicolon)
    (run : g.statement (s.extend rest) = .ok a s') (behind : s'.current.kind = .semicolon)
    (lexed' : AllLexed g.level rest) :
    s'.pending = d :: rest ∧
      ∃ span s'', g.single s = .ok ({ kind := .repl, span, children := [a.1] }, a.2) s'' := by
  have longer : (s.extend rest).pending = w ++ d :: rest := by
    simp [TokenStream.extend, pending]
  have left := pending_of_statement (lexed.append lexed') run longer free semicolon behind
  refine ⟨left, ?_⟩
  have still := not_waits_statement lexed (by simp [pending, semicolon])
  have some : s.pending ≠ [] := by simp [pending]
  have same := (g.steady_statement s.pending.length).agrees s rest (Nat.le_refl _) (.inr ⟨some, still⟩)
  rw [run] at same
  cases short : g.statement s with
  | error e t =>
    rw [short] at same
    cases same
  | ok a t =>
    rw [short] at same
    cases same
    have last : t.pending = [d] :=
      List.append_cancel_right (show t.pending ++ rest = [d] ++ rest from left)
    let start := s.current.span.start
    have ended : ending start a.1 t = .ok
        { kind := .repl, span := t.advance.spanFrom start, children := [a.1] } t.advance := by
      change (eat .semicolon >>= fun _ => closing start a.1) t = _
      rw [eat_bind, bind_ok (current_apply t), if_pos (by rwa [TokenStream.current_of_pending last]),
        bind_ok (advance_apply t), closing_of_end (TokenStream.pending_advance_of_pending last)]
      rfl
    refine ⟨t.advance.spanFrom start, t.advance, ?_⟩
    change (g.statement >>= fun x => ending start x.1 >>= fun tree => pure (tree, x.2)) s = _
    rw [bind_ok short, bind_ok ended]
    rfl

end Grammar

end OpenExpr
