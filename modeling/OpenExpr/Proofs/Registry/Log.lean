import OpenExpr.Proofs.Registry.Steps

namespace OpenExpr

namespace Session

/-- What can happen to a session: it is asked to do something with a text, or an operator
is registered directly. An operator that stands nowhere is not registered. -/
inductive Event where
  | command (c : Command)
  | operator (symbol : Char) (fixity? : Option Fixity) (precedence : Int32)

def happen (s : Session) : Event → Session
  | .command c => (s.perform c).2
  | .operator _ none _ => s
  | .operator symbol (some fixity) precedence =>
    s.withOperators (s.env.operators.register symbol fixity precedence)

/-- The session after events that happen one after the other. -/
def after (s : Session) : List Event → Session
  | [] => s
  | e :: es => (s.happen e).after es

theorem after_append (s : Session) (first later : List Event) :
    s.after (first ++ later) = (s.after first).after later := by
  induction first generalizing s with
  | nil => rfl
  | cons e first ih => exact ih (s.happen e)

/-- The operators that an event registers, in their order. -/
inductive Event.Registers (level : Level) (file : String) : Event → List OperatorDefinition → Prop
  | command {c ops} : ReadsHeaders level file c.mode c.text ops → Registers level file (.command c) ops
  | operator {symbol fixity precedence} :
      Registers level file (.operator symbol (some fixity) precedence) [⟨symbol, fixity, precedence⟩]
  | nothing {symbol precedence} : Registers level file (.operator symbol none precedence) []

/-- An event registers operators in one way only, and that is all it does to the table. -/
theorem happen_registers (s : Session) (e : Event) : ∃ ops,
    (∀ other, e.Registers s.env.options.level s.sourceName other ↔ other = ops) ∧
    (s.happen e).env.operators = s.env.operators.registerAll ops ∧
    (s.happen e).env.options = s.env.options ∧ (s.happen e).sourceName = s.sourceName := by
  cases e with
  | command c =>
    obtain ⟨ops, us, env, reads, steps, done, _⟩ := s.perform_steps c
    refine ⟨ops, fun other => ⟨fun registers => ?_, fun same => .command ((reads other).mpr same)⟩, ?_⟩
    · cases registers with
      | command headers => exact (reads other).mp headers
    · rw [show s.happen (.command c) = { s with env } from done]
      exact ⟨steps.operators, steps.options, rfl⟩
  | operator symbol fixity? precedence =>
    cases fixity? with
    | none =>
      refine ⟨[], fun other => ⟨fun registers => ?_, fun same => same ▸ .nothing⟩, rfl, rfl, rfl⟩
      cases registers
      rfl
    | some fixity =>
      refine ⟨_, fun other => ⟨fun registers => ?_, fun same => same ▸ .operator⟩, rfl, rfl, rfl⟩
      cases registers
      rfl

/-- The table is what the registrations of all events make of it, by induction on the
events. -/
theorem after_registers (s : Session) (es : List Event) : ∃ parts,
    (∀ others, List.Forall₂ (Event.Registers s.env.options.level s.sourceName) es others ↔
      others = parts) ∧
    (s.after es).env.operators = s.env.operators.registerAll parts.flatten := by
  induction es generalizing s with
  | nil => exact ⟨[], fun others => List.forall₂_nil_left_iff, rfl⟩
  | cons e es ih =>
    obtain ⟨ops, registers, table, options, file⟩ := s.happen_registers e
    obtain ⟨parts, later, tables⟩ := ih (s.happen e)
    rw [options, file] at later
    refine ⟨ops :: parts, fun others => ?_, ?_⟩
    · rw [List.forall₂_cons_left_iff]
      constructor
      · rintro ⟨part, rest, first, others, rfl⟩
        rw [(registers part).mp first, (later rest).mp others]
      · rintro rfl
        exact ⟨ops, parts, (registers ops).mpr rfl, (later parts).mpr rfl, rfl⟩
    · rw [List.flatten_cons, OperatorTable.registerAll_append, ← table]
      exact tables

end Session

open Session

/-- The operators of a session are those that were registered, whatever happened in between:
operators that were registered directly, and those whose headers were read, even if nothing
came of their definitions. The operators built in read as ever; any other symbol reads as
its last registration on that side, and without one it is no operator there. What is
registered by reading a header is definable. No operator is forgotten. -/
theorem operators_read_as_registered (options : Options) (file : String) (es : List Event) :
    let start : Session := { Session.new options with sourceName := file }
    ∃ parts, (∀ others, List.Forall₂ (Event.Registers options.level file) es others ↔ others = parts) ∧
      let log := parts.flatten
      let table := (start.after es).env.operators
      table = OperatorTable.empty.registerAll log ∧
      (∀ b : BuiltIn, table.infixOp? b.symbol = some b.operator) ∧
      (∀ c, BuiltIn.ofSymbol? c = none →
        table.infixOp? c = OperatorTable.lastRegistered? true c log ∧
        ((table.infixOp? c).isSome = true ↔ ∃ op ∈ log, op.fixity.isInfix = true ∧ op.symbol = c) ∧
        table.precedence c =
          ((OperatorTable.lastRegistered? true c log).map Operator.precedence).getD 0) ∧
      (∀ c, table.prefixOp? c = OperatorTable.lastRegistered? false c log ∧
        ((table.prefixOp? c).isSome = true ↔
          ∃ op ∈ log, op.fixity.isInfix = false ∧ op.symbol = c)) ∧
      (∀ c ops, Event.Registers options.level file (.command c) ops → ∀ op ∈ ops, op.IsDefinable) ∧
      ∀ more, table.Within (start.after (es ++ more)).env.operators := by
  intro start
  obtain ⟨parts, registers, table⟩ := start.after_registers es
  refine ⟨parts, registers, table, fun b => ?_, fun c free => ?_, fun c => ?_, ?_, fun more => ?_⟩
  · exact OperatorTable.infixOp?_of_builtIn b.ofSymbol?_symbol _
  · have reads : (start.after es).env.operators.infixOp? c =
        OperatorTable.lastRegistered? true c parts.flatten := by
      rw [table, OperatorTable.infixOp?_registerAll free]
      exact (congrArg _ (OperatorTable.infixOp?_empty free)).trans (Option.or_none)
    refine ⟨reads, ?_, by rw [OperatorTable.precedence, reads]⟩
    rw [reads]
    exact OperatorTable.isSome_lastRegistered?_iff
  · have reads : (start.after es).env.operators.prefixOp? c =
        OperatorTable.lastRegistered? false c parts.flatten := by
      rw [table, OperatorTable.prefixOp?_registerAll]
      exact (congrArg _ (OperatorTable.prefixOp?_empty c)).trans (Option.or_none)
    refine ⟨reads, ?_⟩
    rw [reads]
    exact OperatorTable.isSome_lastRegistered?_iff
  · rintro c ops ⟨headers⟩
    exact headers.isDefinable
  · rw [after_append]
    obtain ⟨later, _, tables⟩ := (start.after es).after_registers more
    rw [tables]
    exact OperatorTable.within_registerAll _ _

/-- The operator stays although its definition does not. -/
example :
    let s := (Session.new {}).after [.command (.source "def binary|7(a b) nowhere; 1 | 2")]
    s.env.operators.infixOp? '|' = some ⟨'|', .infixLeft, 7, false⟩ ∧
      s.env.declarations.isEmpty = true := by
  decide +kernel

end OpenExpr
