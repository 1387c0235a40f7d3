import OpenExpr.Proofs.Grammar.Acceptance
import OpenExpr.Proofs.Scoping.Form

namespace OpenExpr

open Parse

/-- The trees of statements as sources write them. -/
inductive SyntaxTree.IsUnit : SyntaxTree → Prop
  | definition {span text header body} : ResolveUnit.isPrototype header = true → IsExpr body →
      IsUnit { kind := .functionDefinition, span, text, children := [header, body] }
  | declaration {span text header} : ResolveUnit.isPrototype header = true →
      IsUnit { kind := .externalDeclaration, span, text, children := [header] }
  | bare {span text body} : IsExpr body →
      IsUnit { kind := .topLevelExpression, span, text, children := [body] }

theorem SyntaxTree.IsUnit.readable {t : SyntaxTree} (form : t.IsUnit) : t.kind ≠ .error := by
  cases form <;> simp

namespace Grammar

variable (g : Grammar) {level : Level}

theorem yields_parameters (budget : Nat) : Yields level (fun _ => True) (parameters budget) := by
  induction budget with
  | zero => exact yields_pure trivial
  | succ budget ih =>
    refine yields_current.bind fun t _ => yields_ite (fun _ => ?_) fun _ => yields_pure trivial
    exact yields_advance.bind fun _ _ => (yields_eat _).bind fun _ _ => ih.bind fun _ _ =>
      yields_pure trivial

theorem yields_precedence (default : Int32) : Yields level (fun _ => True) (precedence default) := by
  refine yields_current.bind fun t _ => yields_ite (fun _ => ?_) fun _ => yields_pure trivial
  refine yields_advance.bind fun token _ => ?_
  split
  · exact yields_pure trivial
  · exact yields_throw (InputError.isNoNumber_of_cause (by simp))

theorem yields_operatorSymbol : Yields level (fun _ => True) operatorSymbol := by
  refine yields_current.bind fun t _ => ?_
  split
  · exact yields_advance.bind fun _ _ => yields_pure trivial
  · exact yields_unexpectedDetailed _

theorem yields_functionPrototype :
    Yields level (fun t => ResolveUnit.isPrototype t = true) functionPrototype :=
  yields_advance.bind fun _ _ => (yields_expect _).bind fun _ _ => yields_remaining.bind
    fun budget _ => (yields_parameters budget).bind fun _ _ => (yields_expect _).bind fun _ _ =>
    yields_node fun _ => rfl

theorem yields_unaryPrototype :
    Yields level (fun a => ResolveUnit.isPrototype a.1 = true) unaryPrototype :=
  yields_advance.bind fun _ _ => yields_operatorSymbol.bind fun _ _ =>
    (yields_precedence _).bind fun _ _ => (yields_expect _).bind fun _ _ =>
    (yields_expect _).bind fun _ _ => (yields_expect _).bind fun _ _ =>
    (yields_node (P := fun t => ResolveUnit.isPrototype t = true) fun _ => rfl).bind fun _ header =>
    yields_pure header

theorem yields_binaryPrototype :
    Yields level (fun a => ResolveUnit.isPrototype a.1 = true) binaryPrototype := by
  refine yields_advance.bind fun _ _ => yields_operatorSymbol.bind fun _ _ =>
    yields_ite (fun _ => (yields_throw (P := fun _ => False) ?_).bind fun _ never => never.elim)
      fun _ => ?_
  · exact InputError.isNoNumber_of_cause (by simp)
  · exact (yields_precedence _).bind fun _ _ => (yields_expect _).bind fun _ _ =>
      (yields_expect _).bind fun _ _ => (yields_eat _).bind fun _ _ => (yields_expect _).bind
      fun _ _ => (yields_expect _).bind fun _ _ =>
      (yields_node (P := fun t => ResolveUnit.isPrototype t = true) fun _ => rfl).bind fun _ header =>
      yields_pure header

theorem yields_prototype :
    Yields level (fun a => ResolveUnit.isPrototype a.1 = true) prototype := by
  refine yields_current.bind fun t _ => ?_
  split
  · exact yields_functionPrototype.bind fun _ header => yields_pure header
  · exact yields_unaryPrototype.bind fun _ header => yields_pure header
  · exact yields_binaryPrototype.bind fun _ header => yields_pure header
  · exact yields_unexpectedDetailed _

theorem yields_statement : Yields level (fun a => SyntaxTree.IsUnit a.1) g.statement := by
  have bare : Yields level (fun a => SyntaxTree.IsUnit a.1) g.topLevel :=
    yields_position.bind fun _ _ => (g.yields_expr 0).bind fun _ body =>
      (yields_node (P := SyntaxTree.IsUnit) fun _ => .bare body).bind fun _ unit => yields_pure unit
  refine yields_ite (fun _ => bare) fun _ => yields_current.bind fun t _ => ?_
  unfold statementOf
  split
  · exact yields_advance.bind fun _ _ => yields_prototype.bind fun _ header =>
      ((g.introduce _).yields_expr 0).bind fun _ body =>
      (yields_node (P := SyntaxTree.IsUnit) fun _ => .definition header body).bind fun _ unit =>
      yields_pure unit
  · exact yields_advance.bind fun _ _ => yields_prototype.bind fun _ header =>
      (yields_node (P := SyntaxTree.IsUnit) fun _ => .declaration header).bind fun _ unit =>
      yields_pure unit
  · exact bare

/-- What holds of every statement holds of one that is read by itself. -/
theorem yields_single_of_statement {P : SyntaxTree × Option OperatorDefinition → Prop}
    (h : Yields level P g.statement) : Yields level
      (fun a => ∃ unit span, P (unit, a.2) ∧ a.1 = { kind := .repl, span, children := [unit] })
      g.single := by
  refine yields_position.bind fun start _ => h.bind fun a good => ?_
  have ending : Yields level (fun t => ∃ span, t = { kind := .repl, span, children := [a.1] })
      (ending start a.1) := by
    refine (yields_eat _).bind fun _ _ s lexed => ?_
    by_cases atEnd : s.pending = []
    · rw [closing_of_end atEnd]
      exact yields_node (fun span => ⟨span, rfl⟩) s lexed
    · rw [closing_of_tokens atEnd]
      exact ⟨s.isNoNumber_unexpectedDetailed _, lexed⟩
  exact ending.bind fun _ ⟨span, same⟩ => yields_pure ⟨a.1, span, good, same⟩

theorem yields_single : Yields level
    (fun a => ∃ unit span, SyntaxTree.IsUnit unit ∧ a.1 = { kind := .repl, span, children := [unit] })
    g.single :=
  g.yields_single_of_statement g.yields_statement

end Grammar

namespace SourceReader

variable {level : Level} {r : SourceReader}

theorem allLexed_synchronize {s : TokenStream} (lexed : AllLexed level s.pending) :
    AllLexed level s.synchronize.pending := by
  have each (tokens : List Token) : ∀ s : TokenStream, AllLexed level s.pending →
      AllLexed level (TokenStream.synchronize.go s tokens).pending := by
    induction tokens with
    | nil => exact fun _ lexed => lexed
    | cons t rest ih =>
      intro s lexed
      unfold TokenStream.synchronize.go
      split
      · exact lexed.advance
      · exact ih s.advance lexed.advance
  exact each s.pending s lexed

/-- Whatever is read of a source is a statement or stands for what cannot be read. -/
theorem isUnit_of_mem_statements (budget : Nat) (lexed : AllLexed level r.tokens.pending) :
    ∀ t ∈ (statements budget r).1, t.IsUnit ∨ t.kind = .error := by
  induction budget generalizing r with
  | zero => simp [statements]
  | succ budget ih =>
    have first := r.grammar.yields_statement r.tokens lexed
    have rest (r : SourceReader) (lexed : AllLexed level r.tokens.pending) :
        ∀ t ∈ (statements budget r.synchronize).1, t.IsUnit ∨ t.kind = .error :=
      ih (r := r.synchronize) (allLexed_synchronize lexed)
    unfold statements
    split
    · simp
    split
    · exact ih (r := r.skip) lexed.advance
    cases run : r.grammar.statement r.tokens with
    | error e s =>
      rw [run] at first
      obtain ⟨g, same⟩ := ParseUnit.statement_follows.error run
      simp only [same, List.forall_mem_cons]
      exact ⟨.inr rfl, rest _ first.2⟩
    | ok a s =>
      rw [run] at first
      simp only [ParseUnit.statement_follows.ok run]
      split
      · simp only [List.forall_mem_cons]
        exact ⟨.inl first.1, ih (r := skip _) first.2.advance⟩
      split
      · simp only [List.forall_mem_cons]
        exact ⟨.inl first.1, .inr rfl, rest _ first.2⟩
      · simpa using .inl first.1

end SourceReader

/-- What is read from the tokens of a source holds statements, and errors only where a
whole source is read. -/
inductive SyntaxTree.IsRead : ParseMode → SyntaxTree → Prop
  | single {span unit} : IsUnit unit → IsRead .repl { kind := .repl, span, children := [unit] }
  | source {span units} : (∀ t ∈ units, IsUnit t ∨ t.kind = .error) →
      IsRead .fullSource { kind := .fullSource, span, children := units }

theorem isRead_of_parse {level : Level} {operators : OperatorTable} {mode : ParseMode}
    {file source : String} {tokens : List Token} (run : tokenize level file source = .ok tokens)
    {t : SyntaxTree} (read : (parse level operators mode file tokens).1 = .ok t) : t.IsRead mode := by
  have lexed := allLexed_ofTokens run
  cases mode with
  | repl =>
    have yields := Grammar.yields_single { level, operators } _ lexed
    rw [parse_repl] at read
    cases single : Grammar.single { level, operators } (.ofTokens file tokens) with
    | error e s => simp [single] at read
    | ok a s =>
      rw [single] at read yields
      obtain ⟨⟨unit, span, good, same⟩, _⟩ := yields
      cases read
      rw [same]
      exact .single good
  | fullSource =>
    cases read
    exact .source (SourceReader.isUnit_of_mem_statements _ lexed)

/-- The tree of a text holds statements, and errors only where it is a whole source. -/
theorem Session.isRead_of_syntaxTree {s : Session} {mode : ParseMode} {text : String} {t : SyntaxTree}
    (read : (s.syntaxTree mode text).1 = .ok t) : t.IsRead mode := by
  obtain ⟨tokens, table, run, parsed, _⟩ := parse_of_syntaxTree (Prod.ext read rfl)
  exact isRead_of_parse run (congrArg Prod.fst parsed)

end OpenExpr
