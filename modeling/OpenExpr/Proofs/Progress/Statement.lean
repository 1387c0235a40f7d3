import OpenExpr.Proofs.Parse.Statement
import OpenExpr.Proofs.Progress.Expression

namespace OpenExpr

open Parse

namespace Grammar

variable {g : Grammar} {s : TokenStream}

theorem advances_parameters (budget : Nat) : Advances 0 (parameters budget) := by
  induction budget with
  | zero => exact advances_pure []
  | succ budget ih =>
    refine advances_current fun _ => advances_ite ?_ (advances_pure [])
    exact advances_advance.bind fun _ => (advances_eat .comma).bind fun _ =>
      ih.bind fun _ => advances_pure _

theorem moves_functionPrototype (some : s.current.kind ≠ .endOfInput) :
    Moves 1 s (functionPrototype s) :=
  (moves_advance some).bind fun _ => (advances_expect _).bind fun _ =>
    advances_remaining fun budget => (advances_parameters budget).bind fun _ =>
    (advances_expect _).bind fun _ => advances_node _ _ _ _

theorem advances_operatorSymbol : Advances 0 operatorSymbol := by
  refine advances_current fun t => ?_
  cases t.symbol? with
  | none => exact advances_unexpectedDetailed _
  | some symbol => exact advances_advance.bind fun _ => advances_pure _

theorem advances_precedence (default : Int32) : Advances 0 (precedence default) := by
  refine advances_current fun _ => advances_ite (advances_advance.bind fun token => ?_) (advances_pure _)
  cases precedence? token.text with
  | none => exact advances_throw _
  | some n => exact advances_pure n

theorem moves_unaryPrototype (some : s.current.kind ≠ .endOfInput) :
    Moves 1 s (unaryPrototype s) :=
  (moves_advance some).bind fun _ => advances_operatorSymbol.bind fun _ =>
    (advances_precedence _).bind fun _ => (advances_expect _).bind fun _ =>
    (advances_expect _).bind fun _ => (advances_expect _).bind fun _ =>
    (advances_node _ _ _ _).bind fun _ => advances_pure _

theorem advances_definableSymbol : Advances 0 definableSymbol := by
  refine advances_current fun t => ?_
  cases t.symbol? with
  | none => exact advances_unexpectedDetailed _
  | some symbol =>
    refine advances_advance.bind fun operator => ?_
    unfold settle
    split
    · exact advances_pure _
    · exact advances_throw _

theorem moves_binaryPrototype (some : s.current.kind ≠ .endOfInput) :
    Moves 1 s (binaryPrototype s) := by
  rw [binaryPrototype_eq]
  exact (moves_advance some).bind fun _ => advances_definableSymbol.bind fun _ =>
    (advances_precedence _).bind fun _ => (advances_expect _).bind fun _ =>
    (advances_expect _).bind fun _ => (advances_eat _).bind fun _ => (advances_expect _).bind fun _ =>
    (advances_expect _).bind fun _ => (advances_node _ _ _ _).bind fun _ => advances_pure _

/-- The token that tells a header from others is its first. -/
theorem advances_prototype : Advances 1 prototype := by
  intro s
  refine moves_current ?_
  cases kind : s.current.kind with
  | identifier =>
    exact (moves_functionPrototype (by simp [kind])).bind fun _ => advances_pure _
  | keyword word =>
    have some : s.current.kind ≠ .endOfInput := by simp [kind]
    cases word with
    | unaryWord => exact (moves_unaryPrototype some).bind fun _ => advances_pure _
    | binaryWord => exact (moves_binaryPrototype some).bind fun _ => advances_pure _
    | _ => exact advances_unexpectedDetailed _ s
  | _ => exact advances_unexpectedDetailed _ s

theorem advances_topLevel : Advances 1 g.topLevel :=
  advances_position fun _ => (advances_expr 0).bind fun _ =>
    (advances_node _ _ _ _).bind fun _ => advances_pure _

theorem moves_definition (some : s.current.kind ≠ .endOfInput) : Moves 1 s (g.definition s) :=
  (moves_advance some).bind fun _ => advances_prototype.weaken.bind fun _ =>
    (advances_expr 0).weaken.bind fun _ => (advances_node _ _ _ _).bind fun _ => advances_pure _

theorem moves_declaration (some : s.current.kind ≠ .endOfInput) : Moves 1 s (declaration s) :=
  (moves_advance some).bind fun _ => advances_prototype.weaken.bind fun _ =>
    (advances_node _ _ _ _).bind fun _ => advances_pure _

theorem advances_statement : Advances 1 g.statement := by
  refine advances_ite advances_topLevel fun s => moves_current ?_
  cases kind : s.current.kind with
  | keyword word =>
    have some : s.current.kind ≠ .endOfInput := by simp [kind]
    cases word with
    | defWord => exact moves_definition some
    | externWord => exact moves_declaration some
    | _ => exact advances_topLevel s
  | _ => exact advances_topLevel s

theorem advances_closing (start : Position) (tree : SyntaxTree) :
    Advances 0 (closing start tree) := by
  intro s
  by_cases atEnd : s.pending = []
  · rw [closing_of_end atEnd]
    exact advances_node _ _ _ _ s
  · rw [closing_of_tokens atEnd]
    exact moves_error _

theorem advances_single : Advances 1 g.single :=
  advances_position fun start => advances_statement.bind fun _ =>
    ((advances_eat .semicolon).bind fun _ => advances_closing start _).bind fun _ => advances_pure _

end Grammar

namespace ParseUnit

variable {α : Type} {least : Nat}

/-- The outcome of a reading and the tokens that are left. -/
def onTokens : EStateM.Result InputError SourceReader α → EStateM.Result InputError TokenStream α
  | .ok a r => .ok a r.tokens
  | .error e r => .error e r.tokens

/-- Wherever it starts, `u` only moves forward and takes at least `least` tokens for what it
reads. -/
def Advances (least : Nat) (u : ParseUnit α) : Prop :=
  ∀ r, Moves least r.tokens (onTokens (u r))

theorem advances_reading {p : Grammar → Parse α} (each : ∀ g, Parse.Advances least (p g)) :
    Advances least (reading p) := by
  intro r
  have moves := each r.grammar r.tokens
  cases run : p r.grammar r.tokens with
  | ok a s =>
    rw [run] at moves
    rw [reading_ok run]
    exact moves
  | error e s =>
    rw [run] at moves
    rw [reading_error run]
    exact moves

theorem Follows.advances {u : ParseUnit α} {p : Grammar → Parse (α × Option OperatorDefinition)}
    (h : u.Follows p) (each : ∀ g, Parse.Advances least (p g)) : Advances least u := by
  intro r
  have moves := each r.grammar r.tokens
  cases run : p r.grammar r.tokens with
  | ok a s =>
    rw [run] at moves
    rw [h.ok run]
    exact moves
  | error e s =>
    rw [run] at moves
    obtain ⟨g, same⟩ := h.error run
    rw [same]
    exact moves

theorem advances_prototype : Advances 1 prototype :=
  prototype_follows.advances fun _ => Grammar.advances_prototype

theorem advances_statement : Advances 1 statement :=
  statement_follows.advances fun _ => Grammar.advances_statement

theorem advances_single : Advances 1 single :=
  single_follows.advances fun _ => Grammar.advances_single

end ParseUnit

end OpenExpr
