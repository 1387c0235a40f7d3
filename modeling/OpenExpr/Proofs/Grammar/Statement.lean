import OpenExpr.Proofs.Grammar.Header

namespace OpenExpr

open Parse

namespace Grammar

variable (g : Grammar)

/-- The token lists that a grammar allows for a statement. -/
abbrev AllowsUnit : List Token → Prop :=
  DerivesUnit g.level fun c => (g.operators.prefixOp? c).isSome = true

/-- The token lists that a grammar allows for a statement by itself. -/
abbrev AllowsStatement : List Token → Prop :=
  DerivesStatement g.level fun c => (g.operators.prefixOp? c).isSome = true

theorem recognises_topLevel : Recognises g.level g.topLevel fun _ => g.AllowsUnit := by
  refine recognises_position fun start => ((g.recognises_expr 0).bind fun body =>
    (recognises_node .topLevelExpression start "" [body]).bind fun tree =>
    recognises_pure (tree, none)).imp ?_
  rintro _ _ ⟨_, w, _, rfl, derived, _, _, _, rfl, rfl, rfl⟩
  simpa only [List.append_nil] using .expression derived

theorem takes_definition {s : TokenStream} {t : Token} {rest : List Token}
    (pending : s.pending = t :: rest) (lexed : AllLexed g.level s.pending)
    (word : t.kind = .keyword .defWord) :
    Takes g.level (fun _ => g.AllowsUnit) s (g.definition s) := by
  have body (op? : Option OperatorDefinition) : Recognises g.level ((g.introduce op?).expr 0)
      fun _ => (g.introduce op?).Allows .expr := by
    have recognises := (g.introduce op?).recognises_expr 0
    rwa [g.level_introduce] at recognises
  refine takes_advance pending lexed ((recognises_prototype g.level).bind fun a =>
    (body a.2).bind fun tree =>
    (recognises_node .functionDefinition t.span.start "" [a.1, tree]).bind fun tree =>
    recognises_pure (tree, a.2)) ?_
  rintro _ _ ⟨⟨_, op?⟩, h, _, rfl, header, _, w, _, rfl, derived, _, _, _, rfl, rfl, rfl⟩
  rw [List.append_nil, List.append_nil]
  rw [g.allows_introduce] at derived
  exact .definition word header derived

theorem takes_declaration {s : TokenStream} {t : Token} {rest : List Token}
    (pending : s.pending = t :: rest) (lexed : AllLexed g.level s.pending)
    (word : t.kind = .keyword .externWord) :
    Takes g.level (fun _ => g.AllowsUnit) s (declaration s) := by
  refine takes_advance pending lexed ((recognises_prototype g.level).bind fun a =>
    (recognises_node .externalDeclaration t.span.start "" [a.1]).bind fun tree =>
    recognises_pure (tree, a.2)) ?_
  rintro _ _ ⟨_, h, _, rfl, header, _, _, _, rfl, rfl, rfl⟩
  rw [List.append_nil, List.append_nil]
  exact .declaration word header

theorem recognises_statement : Recognises g.level g.statement fun _ => g.AllowsUnit := by
  refine ⟨fun s lexed => ?_, g.recognises_topLevel.word⟩
  unfold statement
  split
  · exact g.recognises_topLevel.takes s lexed
  rw [bind_ok (current_apply s)]
  cases pending : s.pending with
  | nil =>
    rw [TokenStream.current_kind_of_end pending]
    exact g.recognises_topLevel.takes s lexed
  | cons t rest =>
    rw [TokenStream.current_of_pending pending]
    cases kind : t.kind with
    | keyword word =>
      cases word with
      | defWord => exact g.takes_definition pending lexed kind
      | externWord => exact g.takes_declaration pending lexed kind
      | _ => exact g.recognises_topLevel.takes s lexed
    | _ => exact g.recognises_topLevel.takes s lexed

/-- Nothing, or a semicolon. -/
def EndingOf (w : List Token) : Prop :=
  w = [] ∨ ∃ d, w = [d] ∧ d.kind = .semicolon

theorem recognises_closing (level : Level) (start : Position) (tree : SyntaxTree) :
    Recognises level (closing start tree) fun _ w => w = [] := by
  have node : Recognises level (node .repl start "" [tree]) fun _ w => w = [] :=
    recognises_node .repl start "" [tree]
  refine ⟨fun s lexed => ?_, node.word⟩
  cases pending : s.pending with
  | nil =>
    rw [closing_of_end pending]
    exact node.takes s lexed
  | cons t rest =>
    have left : s.pending ≠ [] := by simp [pending]
    rw [closing_of_tokens left]
    exact takes_error (by simp [TokenStream.unexpectedDetailed, pending, InputError.isEndOfInput])

theorem recognises_ending (level : Level) (start : Position) (tree : SyntaxTree) :
    Recognises level (ending start tree) fun _ => EndingOf :=
  have closing := recognises_closing level start tree
  recognises_eat .semicolon (by decide) closing (closing.imp fun _ _ => .inl) fun d _ _ semicolon h =>
    .inr ⟨d, by rw [h], semicolon⟩

theorem closing_ok {start : Position} {tree tree' : SyntaxTree} {s s' : TokenStream}
    (run : closing start tree s = .ok tree' s') : s'.pending = [] := by
  by_cases atEnd : s.pending = []
  · rw [closing_of_end atEnd] at run
    cases run
    exact atEnd
  · rw [closing_of_tokens atEnd] at run
    cases run

theorem recognises_single : Recognises g.level g.single fun _ => g.AllowsStatement := by
  refine recognises_position fun start => ((g.recognises_statement).bind fun a =>
    (recognises_ending g.level start a.1).bind fun tree => recognises_pure (tree, a.2)).imp ?_
  rintro _ _ ⟨_, w, _, rfl, derived, _, e, _, rfl, last, rfl⟩
  rw [List.append_nil]
  rcases last with rfl | ⟨d, rfl, semicolon⟩
  · rw [List.append_nil]
    exact .bare derived
  · exact .ended derived semicolon

/-- Nothing is left behind a statement that is read by itself. -/
theorem single_ok {a : SyntaxTree × Option OperatorDefinition} {s s' : TokenStream}
    (run : g.single s = .ok a s') : s'.pending = [] := by
  obtain ⟨start, _, _, run⟩ := bind_eq_ok run
  obtain ⟨⟨tree, op?⟩, _, _, run⟩ := bind_eq_ok run
  obtain ⟨tree', _, last, done⟩ := bind_eq_ok run
  cases done
  obtain ⟨_, _, _, last⟩ := bind_eq_ok last
  exact closing_ok last

end Grammar

end OpenExpr
