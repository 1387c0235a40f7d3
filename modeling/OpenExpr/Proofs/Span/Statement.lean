import OpenExpr.Proofs.Recovery.Rounds
import OpenExpr.Proofs.Scoping.Unit
import OpenExpr.Proofs.Span.Expression
import OpenExpr.Proofs.Token.Tiling

namespace OpenExpr

open Parse SyntaxTree

namespace Grammar

variable {g : Grammar} {size lo hi : Nat} {s : TokenStream}

theorem liesIn_parameter {name : Token} (inside : name.span.Within lo hi) :
    (parameter name).LiesIn lo hi :=
  ⟨inside, isLaid_leaf inside.forward⟩

theorem lands_parameters (budget : Nat) (ordered : s.InOrder size) :
    Lands size s (fun s' ts => AllLieIn s.back s'.back ts) (parameters budget s) := by
  induction budget generalizing s with
  | zero => exact lands_pure ordered (.nil (Nat.le_refl _))
  | succ budget ih =>
    refine lands_current (lands_ite (fun name => ?_) fun _ => lands_pure ordered (.nil (Nat.le_refl _)))
    exact (lands_token ordered (name ▸ by decide)).bind fun name s₁ r₁ inside =>
      (lands_eat r₁.ordered .comma).bind fun _ s₂ r₂ _ => (ih r₂.ordered).bind fun rest s₃ r₃ others =>
      lands_pure r₃.ordered ((liesIn_parameter (inside.mono ordered.gap (Nat.le_refl _))).cons r₂.back others)

theorem laid_functionPrototype (ordered : s.InOrder size) (some : s.current.kind ≠ .endOfInput) :
    Laid size s (functionPrototype s) := by
  refine (lands_token ordered some).bind fun name s₁ r₁ inside =>
    (lands_expect r₁.ordered (by decide)).bind fun _ s₂ r₂ _ => lands_remaining <|
    (lands_parameters _ r₂.ordered).bind fun names s₃ r₃ each =>
    (lands_expect r₃.ordered (by decide)).bind fun _ s₄ r₄ _ => ?_
  have inside' : AllLieIn name.span.lower s₄.back names :=
    each.mono (inside.lower_le.trans r₂.back) r₄.back
  exact Lands.imp (lands_node r₄.ordered inside') fun t s₅ _ lies =>
    lies.mono inside.lower (Nat.le_refl _)

theorem lands_operatorSymbol (ordered : s.InOrder size) :
    Lands size s (fun s' a => a.2.span.Within s.next s'.back) (operatorSymbol s) := by
  refine lands_current ?_
  cases operator : s.current.symbol? with
  | none => exact lands_unexpectedDetailed ordered _
  | some symbol =>
    exact (lands_token ordered (Token.kind_ne_endOfInput_of_symbol? operator)).bind
      fun token s₁ r₁ inside => lands_pure r₁.ordered inside

theorem lands_precedence (ordered : s.InOrder size) (default : Int32) :
    Lands size s (fun _ _ => True) (precedence default s) := by
  refine lands_current (lands_ite (fun _ => ?_) fun _ => lands_pure ordered trivial)
  refine (lands_advance ordered).bind fun token s₁ r₁ next => ?_
  cases precedence? token.text with
  | some n => exact lands_pure r₁.ordered trivial
  | none =>
    subst next
    exact lands_throw r₁.ordered ordered.next_le

/-- The header that is read lies between the next token and the last one that was read. -/
abbrev LaidHeader {α : Type} (size : Nat) (s : TokenStream) :
    EStateM.Result InputError TokenStream (SyntaxTree × α) → Prop :=
  Lands size s fun s' a => a.1.LiesIn s.next s'.back

/-- What is returned beside a node has no say in where the node lies. -/
theorem laidHeader_node {α : Type} {kind : SyntaxTree.Kind} {start : Token} {text : String}
    {s' : TokenStream} {children : List SyntaxTree} (first : start = s.current)
    (ordered : s'.InOrder size) (inside : AllLieIn (s.next + kind.lead) s'.back children) (a : α) :
    Lands size s' (fun s'' b => b.1.LiesIn s.next s''.back)
      ((node kind start.span.start text children >>= fun t => pure (t, a)) s') :=
  (laid_node first ordered inside).bind fun _ _ r lies => lands_pure r.ordered lies

theorem laidHeader_unaryPrototype (ordered : s.InOrder size) :
    LaidHeader size s (unaryPrototype s) := by
  refine (lands_advance ordered).bind fun _ s₁ r₁ start =>
    (lands_operatorSymbol r₁.ordered).bind fun _ s₂ r₂ _ =>
    (lands_precedence r₂.ordered _).bind fun _ s₃ r₃ _ =>
    (lands_expect r₃.ordered (by decide)).bind fun _ s₄ r₄ _ =>
    (lands_expect r₄.ordered (by decide)).bind fun _ s₅ r₅ operand =>
    (lands_expect r₅.ordered (by decide)).bind fun _ s₆ r₆ _ => ?_
  refine laidHeader_node start r₆.ordered ?_ _
  exact (liesIn_parameter operand).one.mono (r₁.trans (r₂.trans (r₃.trans r₄))).next r₆.back

theorem laidHeader_binaryPrototype (ordered : s.InOrder size) :
    LaidHeader size s (binaryPrototype s) := by
  refine (lands_advance ordered).bind fun _ s₁ r₁ start =>
    (lands_operatorSymbol r₁.ordered).bind fun operator s₂ r₂ sign =>
    lands_ite (fun _ => ?_) fun _ => ?_
  · refine (lands_throw (P := fun _ (_ : PUnit) => False) r₂.ordered ?_).bind
      fun _ _ _ never => never.elim
    exact sign.lower_le.trans r₂.ordered.back_le
  · refine (lands_precedence r₂.ordered _).bind fun _ s₃ r₃ _ =>
      (lands_expect r₃.ordered (by decide)).bind fun _ s₄ r₄ _ =>
      (lands_expect r₄.ordered (by decide)).bind fun _ s₅ r₅ left =>
      (lands_eat r₅.ordered .comma).bind fun _ s₆ r₆ _ =>
      (lands_expect r₆.ordered (by decide)).bind fun _ s₇ r₇ right =>
      (lands_expect r₇.ordered (by decide)).bind fun _ s₈ r₈ _ => ?_
    have names := (liesIn_parameter left).cons r₆.gap (liesIn_parameter right).one
    refine laidHeader_node start r₈.ordered ?_ _
    exact names.mono (r₁.trans (r₂.trans (r₃.trans r₄))).next r₈.back

theorem laidHeader_prototype (ordered : s.InOrder size) : LaidHeader size s (prototype s) := by
  refine lands_current ?_
  cases kind : s.current.kind with
  | identifier =>
    exact (laid_functionPrototype ordered (by simp [kind])).bind fun _ _ r lies =>
      lands_pure r.ordered lies
  | keyword word =>
    cases word with
    | unaryWord =>
      exact (laidHeader_unaryPrototype ordered).bind fun _ _ r lies => lands_pure r.ordered lies
    | binaryWord =>
      exact (laidHeader_binaryPrototype ordered).bind fun _ _ r lies => lands_pure r.ordered lies
    | _ => exact lands_unexpectedDetailed ordered _
  | _ => exact lands_unexpectedDetailed ordered _

theorem laidHeader_topLevel (ordered : s.InOrder size) : LaidHeader size s (g.topLevel s) := by
  refine lands_position ((lays_expr 0 s ordered).bind fun _ s₁ r₁ body => ?_)
  refine laidHeader_node (s := s) rfl r₁.ordered ?_ _
  exact body.one

theorem laidHeader_definition (ordered : s.InOrder size) : LaidHeader size s (g.definition s) := by
  refine (lands_advance ordered).bind fun _ s₁ r₁ start =>
    (laidHeader_prototype r₁.ordered).bind fun _ s₂ r₂ header =>
    (lays_expr 0 s₂ r₂.ordered).bind fun _ s₃ r₃ body => ?_
  refine laidHeader_node start r₃.ordered ?_ _
  exact (header.cons r₂.ordered.gap body.one).mono r₁.next (Nat.le_refl _)

theorem laidHeader_declaration (ordered : s.InOrder size) : LaidHeader size s (declaration s) := by
  refine (lands_advance ordered).bind fun _ s₁ r₁ start =>
    (laidHeader_prototype r₁.ordered).bind fun _ s₂ r₂ header => ?_
  refine laidHeader_node start r₂.ordered ?_ _
  exact header.one.mono r₁.next (Nat.le_refl _)

/-- A statement lies between the token with which it starts and the last one that was read. -/
theorem laidHeader_statement (ordered : s.InOrder size) : LaidHeader size s (g.statement s) := by
  refine lands_ite (fun _ => laidHeader_topLevel ordered) fun _ => lands_current ?_
  cases s.current.kind with
  | keyword word =>
    cases word with
    | defWord => exact laidHeader_definition ordered
    | externWord => exact laidHeader_declaration ordered
    | _ => exact laidHeader_topLevel ordered
  | _ => exact laidHeader_topLevel ordered

end Grammar

theorem liesIn_ofError {size : Nat} {e : InputError} (inside : e.position.offset.toNat ≤ size) :
    (ofError e).LiesIn 0 size :=
  ⟨⟨Nat.zero_le _, Nat.le_refl _, inside⟩, isLaid_leaf (Nat.le_refl _)⟩

namespace SourceReader

variable {size : Nat} {r : SourceReader}

/-- What a round over tokens in order contributes lies in the source. -/
theorem liesIn_round (ordered : r.tokens.InOrder size) :
    (∀ t ∈ r.round.1, t.LiesIn 0 size) ∧ r.tokens.Reaches size r.round.2.tokens := by
  have outcome := r.grammar.laidHeader_statement ordered
  unfold round
  split
  · exact ⟨by simp, ordered.advance⟩
  cases run : r.grammar.statement r.tokens with
  | error e s =>
    rw [run] at outcome
    obtain ⟨g, same⟩ := ParseUnit.statement_follows.error run
    simp only [same, List.mem_singleton, forall_eq]
    exact ⟨liesIn_ofError outcome.2, outcome.1.trans (TokenStream.reaches_synchronize outcome.1.ordered)⟩
  | ok a s =>
    rw [run] at outcome
    obtain ⟨reaches, lies⟩ := outcome
    have inside : a.1.LiesIn 0 size :=
      lies.mono (Nat.zero_le _) reaches.ordered.back_le
    simp only [ParseUnit.statement_follows.ok run]
    split
    · simp only [List.mem_singleton, forall_eq]
      exact ⟨inside, reaches.trans reaches.ordered.advance⟩
    split
    · simp only [List.forall_mem_cons]
      exact ⟨⟨inside, liesIn_ofError (TokenStream.unexpectedDetailed_le reaches.ordered _), by simp⟩,
        reaches.trans (TokenStream.reaches_synchronize reaches.ordered)⟩
    · simp only [List.mem_singleton, forall_eq]
      exact ⟨inside, reaches⟩

theorem liesIn_statements (budget : Nat) (ordered : r.tokens.InOrder size) :
    (∀ t ∈ (statements budget r).1, t.LiesIn 0 size) ∧
      r.tokens.Reaches size (statements budget r).2.tokens := by
  induction budget generalizing r with
  | zero => exact ⟨by simp [statements], .refl ordered⟩
  | succ budget ih =>
    by_cases atEnd : r.tokens.pending = []
    · rw [statements_of_end atEnd]
      exact ⟨by simp, .refl ordered⟩
    · obtain ⟨first, reaches⟩ := liesIn_round ordered
      obtain ⟨others, rest⟩ := ih reaches.ordered
      rw [statements_succ atEnd]
      exact ⟨List.forall_mem_append.mpr ⟨first, others⟩, reaches.trans rest⟩

/-- A source that is read from its start on lies between its first token and its end. -/
theorem within_fullSource (ordered : r.tokens.InOrder size) (start : r.tokens.readTo = none) :
    r.fullSource.1.span.Within 0 size := by
  obtain ⟨_, reaches⟩ := liesIn_statements r.tokens.pending.length ordered
  change (TokenStream.spanFrom _ r.tokens.current.span.start).Within 0 size
  rcases reaches.moved with same | moved
  · have stays : TokenStream.spanFrom (statements r.tokens.pending.length r).2.tokens
        r.tokens.current.span.start = r.tokens.current.span.start.toSpan := by
      rw [TokenStream.spanFrom, same, start]
      rfl
    rw [stays]
    exact ⟨Nat.zero_le _, Nat.le_refl _, ordered.next_le⟩
  · have upper : (TokenStream.spanFrom (statements r.tokens.pending.length r).2.tokens
        r.tokens.current.span.start).upper = _ := TokenStream.upper_spanFrom moved
    refine ⟨Nat.zero_le _, ?_, ?_⟩
    · rw [upper]
      exact moved
    · rw [upper]
      exact reaches.ordered.back_le

end SourceReader

/-- The tokens of a source are in order before any is read. -/
theorem Tiling.inOrder {source : String} {body : List Token} {finish : Token}
    (tiling : Tiling source body finish) :
    TokenStream.InOrder source.utf8ByteSize
      { pending := body, finish, finish_kind := tiling.finish_kind } := by
  have token : ∀ t ∈ body, t.span.lower < t.span.upper ∧ t.span.upper ≤ source.utf8ByteSize := by
    intro t member
    obtain ⟨before, after, split, lower, upper⟩ := tiling.slice t member
    have some : 0 < t.text.utf8ByteSize :=
      Nat.pos_of_ne_zero fun none => (tiling.proper t member).2 (String.utf8ByteSize_eq_zero_iff.mp none)
    have whole := congrArg String.utf8ByteSize split
    simp only [String.utf8ByteSize_append] at upper whole
    rw [Span.lower, Span.upper, lower, upper]
    omega
  refine ⟨Span.row_of_pairwise (Nat.zero_le _) ?_ (List.pairwise_map.mpr tiling.ordered),
    fun t member => (token t member).1⟩
  rw [List.map_append]
  refine List.forall_mem_append.mpr ⟨?_, ?_⟩
  · refine List.forall_mem_map.mpr fun t member => ?_
    obtain ⟨solid, inside⟩ := token t member
    exact ⟨Nat.zero_le _, solid.le, inside⟩
  · obtain ⟨lower, upper⟩ := tiling.finish_span
    refine List.forall_mem_singleton.mpr ⟨Nat.zero_le _, Nat.le_of_eq ?_, Nat.le_of_eq ?_⟩
    · rw [Span.lower, Span.upper, upper]
    · rw [Span.upper, upper, lower]

/-- The parts of the tree lie in the source, each of them laid out along it. -/
structure SyntaxTree.LiesInSource (size : Nat) (t : SyntaxTree) : Prop where
  span : t.span.Within 0 size
  units : ∀ u ∈ t.children, u.LiesIn 0 size

namespace Session

variable {s : Session} {text : String}

/-- What a text that is not too long is read as lies inside it. -/
theorem liesInSource_of_syntaxTree (small : text.utf8ByteSize < UInt32.size) {t : SyntaxTree}
    (read : (s.syntaxTree .fullSource text).1 = .ok t) : t.LiesInSource text.utf8ByteSize := by
  obtain ⟨tokens, table, run, parsed, _⟩ := parse_of_syntaxTree (Prod.ext read rfl)
  cases parsed
  unfold tokenize at run
  cases lexed : Lexeme.ofSource text with
  | error stray => simp [lexed] at run
  | ok lexemes =>
    rw [lexed] at run
    cases run
    have tiling := Lexeme.tiling_toToken s.sourceName s.env.options.level small lexed
    have each := Lexeme.allLexed_of_ofSource lexed s.sourceName s.env.options.level
    have stream := ofTokens_body s.sourceName each tiling.finish_kind
    have ordered := tiling.inOrder
    rw [← stream] at ordered
    have start := congrArg TokenStream.readTo stream
    let r := SourceReader.ofTokens { level := s.env.options.level, operators := s.env.operators }
      s.sourceName (lexemes.map (Lexeme.toToken s.sourceName s.env.options.level) ++
        [.endAt { offset := text.utf8ByteSize.toUInt32, file := s.sourceName }])
    exact ⟨SourceReader.within_fullSource (r := r) ordered start,
      (SourceReader.liesIn_statements (r := r) _ ordered).1⟩

/-- A character that may not stand in a text is found inside it. -/
theorem position_le_of_syntaxTree (small : text.utf8ByteSize < UInt32.size) {e : InputError}
    (failed : (s.syntaxTree .fullSource text).1 = .error e) :
    e.position.offset.toNat ≤ text.utf8ByteSize := by
  unfold syntaxTree at failed
  cases run : tokenize s.env.options.level s.sourceName text with
  | ok tokens =>
    simp only [run] at failed
    cases failed
  | error stray =>
    simp only [run, Except.error.injEq] at failed
    subst failed
    unfold tokenize at run
    cases lexed : Lexeme.ofSource text with
    | ok lexemes => simp [lexed] at run
    | error stray =>
      rw [lexed] at run
      cases run
      obtain ⟨⟨offset, c⟩, found, rfl⟩ := Option.map_eq_some_iff.mp (Lexeme.ofSource_eq_error_iff.mp lexed)
      have inside := Text.le_of_mem_outsideComments (List.mem_of_find?_eq_some found)
      rw [Text.byteCount_toList, Nat.zero_add] at inside
      rw [toNat_toUInt32 (Nat.lt_of_le_of_lt inside small)]
      exact inside

end Session

end OpenExpr
