import OpenExpr.Proofs.Parse.Header
import OpenExpr.SyntaxTree.Source

namespace OpenExpr

open Parse

namespace Grammar

variable (g : Grammar)

/-- The grammar once a header was read that may introduce an operator. -/
def introduce : Option OperatorDefinition → Grammar
  | some op => g.define op
  | none => g

/-- A definition, together with the operator that its header introduces. -/
def definition : Parse (SyntaxTree × Option OperatorDefinition) := do
  let start := (← Parse.advance).span.start
  let (header, op?) ← prototype
  let body ← (g.introduce op?).expr 0
  let tree ← Parse.node .functionDefinition start "" [header, body]
  return (tree, op?)

def declaration : Parse (SyntaxTree × Option OperatorDefinition) := do
  let start := (← Parse.advance).span.start
  let (header, op?) ← prototype
  let tree ← Parse.node .externalDeclaration start "" [header]
  return (tree, op?)

def topLevel : Parse (SyntaxTree × Option OperatorDefinition) := do
  let start ← Parse.position
  let body ← g.expr 0
  let tree ← Parse.node .topLevelExpression start "" [body]
  return (tree, none)

/-- The statement that starts with a token of the given kind. -/
def statementOf : Token.Kind → Parse (SyntaxTree × Option OperatorDefinition)
  | .keyword .defWord => g.definition
  | .keyword .externWord => declaration
  | _ => g.topLevel

/-- A statement, read with no state but the tokens. -/
def statement : Parse (SyntaxTree × Option OperatorDefinition) := do
  if g.isBare then g.topLevel else g.statementOf (← Parse.current).kind

/-- The end of the input behind a statement that is read by itself. -/
def closing (start : Position) (tree : SyntaxTree) : Parse SyntaxTree := do
  if (← get).hasTokens then
    Parse.unexpectedDetailed "expected end of statement"
  Parse.node .repl start "" [tree]

/-- Only a semicolon may stand between a statement and the end. -/
def ending (start : Position) (tree : SyntaxTree) : Parse SyntaxTree := do
  let _ ← Parse.eat .semicolon
  closing start tree

/-- A statement by itself, up to the end of the input. -/
def single : Parse (SyntaxTree × Option OperatorDefinition) := do
  let start ← Parse.position
  let (tree, op?) ← g.statement
  let tree ← ending start tree
  return (tree, op?)

theorem steady_topLevel (n : Nat) : Steady n g.topLevel g.topLevel :=
  steady_position fun _ => (g.steady_expr n 0).bind fun _ =>
    (steady_node n _ _ _ _).bind fun _ => steady_pure n _

theorem steady_statementOf (n : Nat) (kind : Token.Kind) :
    Steady n (g.statementOf kind) (g.statementOf kind) := by
  unfold statementOf
  split
  · exact (steady_advance n).bind fun _ => (steady_prototype n).bind fun _ =>
      ((g.introduce _).steady_expr n 0).bind fun _ =>
      (steady_node n _ _ _ _).bind fun _ => steady_pure n _
  · exact (steady_advance n).bind fun _ => (steady_prototype n).bind fun _ =>
      (steady_node n _ _ _ _).bind fun _ => steady_pure n _
  · exact g.steady_topLevel n

theorem steady_statement (n : Nat) : Steady n g.statement g.statement :=
  steady_ite _ (g.steady_topLevel n) (steady_current fun t => g.steady_statementOf n t.kind)

theorem get_apply (s : TokenStream) : (get : Parse TokenStream) s = .ok s s := rfl

theorem closing_of_end {s : TokenStream} (atEnd : s.pending = []) (start : Position)
    (tree : SyntaxTree) : closing start tree s = Parse.node .repl start "" [tree] s := by
  unfold closing
  rw [bind_ok (get_apply s), if_neg (by simp [TokenStream.hasTokens, atEnd])]

theorem closing_of_tokens {s : TokenStream} (left : s.pending ≠ []) (start : Position)
    (tree : SyntaxTree) :
    closing start tree s = .error (s.unexpectedDetailed "expected end of statement") s := by
  unfold closing
  rw [bind_ok (get_apply s), if_pos (by simp [TokenStream.hasTokens, left])]
  rfl

/-- Whether something is left is settled where something is left. -/
theorem steady_closing (n : Nat) (start : Position) (tree : SyntaxTree) :
    Steady n (closing start tree) (closing start tree) where
  forward s small := by
    by_cases atEnd : s.pending = []
    · rw [closing_of_end atEnd]
      exact (steady_node n .repl start "" [tree]).forward s small
    · rw [closing_of_tokens atEnd]
      exact ⟨[], rfl⟩
  finish s small := by
    by_cases atEnd : s.pending = []
    · rw [closing_of_end atEnd]
      exact (steady_node n .repl start "" [tree]).finish s small
    · rw [closing_of_tokens atEnd]
      rfl
  agrees s more small going := by
    rcases going with rfl | ⟨left, _⟩
    · rw [TokenStream.extend_nil, extendResult_nil]
    · have left' : (s.extend more).pending ≠ [] := by simp [TokenStream.extend, left]
      rw [closing_of_tokens left, closing_of_tokens left',
        TokenStream.unexpectedDetailed_extend more _ left]
      rfl
  patient s atEnd := by
    rw [closing_of_end atEnd]
    exact atEnd

theorem steady_ending (n : Nat) (start : Position) (tree : SyntaxTree) :
    Steady n (ending start tree) (ending start tree) :=
  (steady_eat n .semicolon).bind fun _ => steady_closing n start tree

theorem steady_single (n : Nat) : Steady n g.single g.single :=
  steady_position fun start => (g.steady_statement n).bind fun _ =>
    (steady_ending n start _).bind fun _ => steady_pure n _

end Grammar

namespace ParseUnit

variable {α β : Type}

/-- The same outcome at the same place, with the operator that was introduced kept
in the grammar `g`. -/
def Keeps (g : Grammar) : EStateM.Result InputError TokenStream (α × Option OperatorDefinition) →
    EStateM.Result InputError SourceReader α → Prop
  | .ok a s, r => r = .ok a.1 { grammar := g.introduce a.2, tokens := s }
  | .error e s, r => ∃ g', r = .error e { grammar := g', tokens := s }

/-- The reading of a statement does what `p` does. -/
def Follows (u : ParseUnit α) (p : Grammar → Parse (α × Option OperatorDefinition)) : Prop :=
  ∀ r, Keeps r.grammar (p r.grammar r.tokens) (u r)

theorem Follows.ok {u : ParseUnit α} {p : Grammar → Parse (α × Option OperatorDefinition)}
    (h : u.Follows p) {r : SourceReader} {a : α × Option OperatorDefinition} {s : TokenStream}
    (run : p r.grammar r.tokens = .ok a s) :
    u r = .ok a.1 { grammar := r.grammar.introduce a.2, tokens := s } := by
  have follows := h r
  rwa [run] at follows

theorem Follows.error {u : ParseUnit α} {p : Grammar → Parse (α × Option OperatorDefinition)}
    (h : u.Follows p) {r : SourceReader} {e : InputError} {s : TokenStream}
    (run : p r.grammar r.tokens = .error e s) :
    ∃ g, u r = .error e { grammar := g, tokens := s } := by
  have follows := h r
  rwa [run] at follows

theorem bind_ok {u : ParseUnit α} {r r' : SourceReader} {a : α} (run : u r = .ok a r')
    (f : α → ParseUnit β) : (u >>= f) r = f a r' := by
  change EStateM.bind u f r = _
  simp only [EStateM.bind, run]

theorem bind_error {u : ParseUnit α} {r r' : SourceReader} {e : InputError}
    (run : u r = .error e r') (f : α → ParseUnit β) : (u >>= f) r = .error e r' := by
  change EStateM.bind u f r = _
  simp only [EStateM.bind, run]

theorem reading_ok {p : Grammar → Parse α} {r : SourceReader} {a : α} {s : TokenStream}
    (run : p r.grammar r.tokens = .ok a s) : reading p r = .ok a { r with tokens := s } := by
  simp only [reading, run]

theorem reading_error {p : Grammar → Parse α} {r : SourceReader} {e : InputError}
    {s : TokenStream} (run : p r.grammar r.tokens = .error e s) :
    reading p r = .error e { r with tokens := s } := by
  simp only [reading, run]

/-- Two readings with one grammar are one. -/
theorem reading_bind_reading (p : Grammar → Parse α) (q : α → Grammar → Parse β) :
    (reading p >>= fun a => reading (q a)) = reading fun g => p g >>= fun a => q a g := by
  funext r
  cases run : p r.grammar r.tokens with
  | error e s =>
    rw [bind_error (reading_error run)]
    exact (reading_error (p := fun g => p g >>= fun a => q a g) (Parse.bind_error run _)).symm
  | ok a s =>
    rw [bind_ok (reading_ok run)]
    simp only [reading, Parse.bind_ok run]

theorem reading_follows (p : Grammar → Parse α) :
    (reading p).Follows fun g => p g >>= fun a => pure (a, none) := by
  intro r
  dsimp only
  cases run : p r.grammar r.tokens with
  | error e s =>
    rw [Parse.bind_error run]
    exact ⟨r.grammar, reading_error run⟩
  | ok a s =>
    rw [Parse.bind_ok run]
    exact reading_ok run

theorem prototype_follows : prototype.Follows fun _ => Grammar.prototype := by
  intro r
  dsimp only
  cases run : Grammar.prototype r.tokens with
  | error e s =>
    exact ⟨r.grammar, bind_error (reading_error (p := fun _ => Grammar.prototype) run) _⟩
  | ok a s =>
    obtain ⟨tree, op?⟩ := a
    refine (bind_ok (reading_ok (p := fun _ => Grammar.prototype) run) _).trans ?_
    cases op? <;> rfl

theorem Follows.after {p : Grammar → Parse α} {f : α → ParseUnit β}
    {q : α → Grammar → Parse (β × Option OperatorDefinition)} (next : ∀ a, (f a).Follows (q a)) :
    (reading p >>= f).Follows fun g => p g >>= fun a => q a g := by
  intro r
  dsimp only
  cases run : p r.grammar r.tokens with
  | error e s =>
    rw [Parse.bind_error run, bind_error (reading_error run)]
    exact ⟨r.grammar, rfl⟩
  | ok a s =>
    rw [Parse.bind_ok run, bind_ok (reading_ok run)]
    exact next a { r with tokens := s }

theorem Follows.before {u : ParseUnit α} {p : Grammar → Parse (α × Option OperatorDefinition)}
    (h : u.Follows p) (q : α → Grammar → Parse β) :
    (u >>= fun a => reading (q a)).Follows fun g => p g >>= fun a =>
      q a.1 (g.introduce a.2) >>= fun b => pure (b, a.2) := by
  intro r
  dsimp only
  cases run : p r.grammar r.tokens with
  | error e s =>
    obtain ⟨g, same⟩ := h.error run
    rw [Parse.bind_error run, bind_error same]
    exact ⟨g, rfl⟩
  | ok a s =>
    rw [Parse.bind_ok run, bind_ok (h.ok run)]
    cases run' : q a.1 (r.grammar.introduce a.2) s with
    | error e s' =>
      rw [Parse.bind_error run', reading_error run']
      exact ⟨_, rfl⟩
    | ok b s' =>
      rw [Parse.bind_ok run', reading_ok run']
      rfl

theorem functionDefinition_follows : functionDefinition.Follows Grammar.definition := by
  refine Follows.after fun t => ?_
  have body (header : SyntaxTree) := reading_bind_reading (fun g => g.expr 0) fun body _ =>
    Parse.node .functionDefinition t.span.start "" [header, body]
  have follows := prototype_follows.before fun header g => g.expr 0 >>= fun body =>
    Parse.node .functionDefinition t.span.start "" [header, body]
  simp only [← body, bind_assoc] at follows
  exact follows

theorem externalDeclaration_follows :
    externalDeclaration.Follows fun _ => Grammar.declaration :=
  Follows.after fun _ => prototype_follows.before _

theorem topLevelExpression_follows : topLevelExpression.Follows Grammar.topLevel := by
  refine Follows.after fun start => ?_
  have body := reading_bind_reading (fun g => g.expr 0) fun body _ =>
    Parse.node .topLevelExpression start "" [body]
  have follows := reading_follows fun g => g.expr 0 >>= fun body =>
    Parse.node .topLevelExpression start "" [body]
  simp only [← body, bind_assoc] at follows
  exact follows

/-- The statement that starts with a token of the given kind. -/
def statementOf : Token.Kind → ParseUnit SyntaxTree
  | .keyword .defWord => functionDefinition
  | .keyword .externWord => externalDeclaration
  | _ => topLevelExpression

theorem statementOf_follows (kind : Token.Kind) :
    (statementOf kind).Follows fun g => g.statementOf kind := by
  cases kind with
  | keyword word =>
    cases word with
    | defWord => exact functionDefinition_follows
    | externWord => exact externalDeclaration_follows
    | _ => exact topLevelExpression_follows
  | _ => exact topLevelExpression_follows

theorem statement_apply (r : SourceReader) :
    statement r =
      (if r.grammar.isBare then topLevelExpression else statementOf r.tokens.current.kind) r := by
  change (if r.grammar.isBare then topLevelExpression else
    reading (fun _ => Parse.current) >>= fun t => statementOf t.kind) r = _
  split <;> rfl

theorem statement_follows : statement.Follows Grammar.statement := by
  intro r
  have start : r.grammar.statement r.tokens = (if r.grammar.isBare then r.grammar.topLevel else
      r.grammar.statementOf r.tokens.current.kind) r.tokens := by
    unfold Grammar.statement
    split <;> rfl
  rw [statement_apply, start]
  split
  · exact topLevelExpression_follows r
  · exact statementOf_follows r.tokens.current.kind r

theorem single_follows : single.Follows Grammar.single :=
  Follows.after fun start => statement_follows.before fun tree _ => Grammar.ending start tree

end ParseUnit

end OpenExpr
