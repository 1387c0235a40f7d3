import OpenExpr.Proofs.Grammar.Acceptance
import OpenExpr.Proofs.Parse.Yields

namespace OpenExpr

open Parse

/-- The tokens start with the header of an operator, and that is read to its end. -/
inductive HasIntroduction (op : OperatorDefinition) : List Token → Prop
  | definition {k h rest} : k.kind = .keyword .defWord → Grammar.IntroducesOperator op h →
      HasIntroduction op (k :: (h ++ rest))
  | declaration {k h rest} : k.kind = .keyword .externWord → Grammar.IntroducesOperator op h →
      HasIntroduction op (k :: (h ++ rest))

namespace Grammar

/-- The operator of a header, if the tokens start with one. -/
def headerOperator? (s : TokenStream) : Option OperatorDefinition :=
  match prototype s with
  | .ok a _ => a.2
  | .error _ _ => none

/-- The operator of the header of a statement, if the tokens start with one. -/
def introduced? (s : TokenStream) : Option OperatorDefinition :=
  match s.current.kind with
  | .keyword .defWord | .keyword .externWord => headerOperator? s.advance
  | _ => none

theorem introducesOperator_of_headerOperator? {level : Level} {s : TokenStream}
    (lexed : AllLexed level s.pending) {op : OperatorDefinition}
    (found : headerOperator? s = some op) :
    ∃ h rest, s.pending = h ++ rest ∧ IntroducesOperator op h := by
  have takes := (recognises_introduction level).takes s lexed
  unfold headerOperator? at found
  cases run : prototype s with
  | error e s' => simp [run] at found
  | ok a s' =>
    obtain ⟨tree, op?⟩ := a
    simp only [run] at found
    subst found
    rw [run] at takes
    obtain ⟨h, split, introduction⟩ := takes
    exact ⟨h, s'.pending, split, introduction⟩

theorem hasIntroduction_of_introduced? {level : Level} {s : TokenStream}
    (lexed : AllLexed level s.pending) {op : OperatorDefinition} (found : introduced? s = some op) :
    HasIntroduction op s.pending := by
  unfold introduced? at found
  cases pending : s.pending with
  | nil => simp [TokenStream.current_kind_of_end pending] at found
  | cons k rest =>
    rw [TokenStream.current_of_pending pending] at found
    have behind := TokenStream.pending_advance_of_pending pending
    split at found
    · obtain ⟨h, rest, split, introduces⟩ := introducesOperator_of_headerOperator? lexed.advance found
      rw [← behind, split]
      exact .definition ‹_› introduces
    · obtain ⟨h, rest, split, introduces⟩ := introducesOperator_of_headerOperator? lexed.advance found
      rw [← behind, split]
      exact .declaration ‹_› introduces
    · cases found

end Grammar

namespace ParseUnit

variable {α β : Type}

/-- The grammar after a reading, whatever came of it. -/
def grammarAfter : EStateM.Result InputError SourceReader α → Grammar
  | .ok _ r => r.grammar
  | .error _ r => r.grammar

/-- The reading leaves the grammar as it is. -/
def IsStill (u : ParseUnit α) : Prop :=
  ∀ r, grammarAfter (u r) = r.grammar

theorem isStill_reading (p : Grammar → Parse α) : (reading p).IsStill := by
  intro r
  unfold reading
  cases p r.grammar r.tokens <;> rfl

/-- Where the rest leaves the grammar as it is, only the first part counts. -/
theorem grammarAfter_bind {u : ParseUnit α} {f : α → ParseUnit β} (next : ∀ a, (f a).IsStill)
    (r : SourceReader) : grammarAfter ((u >>= f) r) = grammarAfter (u r) := by
  cases run : u r with
  | ok a r' =>
    rw [bind_ok run]
    exact next a r'
  | error e r' =>
    rw [bind_error run]
    rfl

theorem IsStill.bind {u : ParseUnit α} {f : α → ParseUnit β} (h : u.IsStill)
    (next : ∀ a, (f a).IsStill) : (u >>= f).IsStill :=
  fun r => (grammarAfter_bind next r).trans (h r)

theorem grammarAfter_prototype (r : SourceReader) :
    grammarAfter (prototype r) = r.grammar.introduce (Grammar.headerOperator? r.tokens) := by
  unfold Grammar.headerOperator?
  cases run : Grammar.prototype r.tokens with
  | ok a s =>
    rw [prototype_follows.ok (r := r) run]
    rfl
  | error e s =>
    exact congrArg grammarAfter
      (bind_error (reading_error (p := fun _ => Grammar.prototype) run) _)

theorem grammarAfter_functionDefinition (r : SourceReader) :
    grammarAfter (functionDefinition r) =
      r.grammar.introduce (Grammar.headerOperator? r.tokens.advance) :=
  (grammarAfter_bind (fun _ => (isStill_reading _).bind fun _ => isStill_reading _) _).trans
    (grammarAfter_prototype { r with tokens := r.tokens.advance })

theorem grammarAfter_externalDeclaration (r : SourceReader) :
    grammarAfter (externalDeclaration r) =
      r.grammar.introduce (Grammar.headerOperator? r.tokens.advance) :=
  (grammarAfter_bind (fun _ => isStill_reading _) _).trans
    (grammarAfter_prototype { r with tokens := r.tokens.advance })

theorem isStill_topLevelExpression : topLevelExpression.IsStill :=
  (isStill_reading _).bind fun _ => (isStill_reading _).bind fun _ => isStill_reading _

/-- A statement makes known the operator of its header, also if it then fails. -/
theorem grammarAfter_statement {r : SourceReader} (full : r.grammar.isBare = false) :
    grammarAfter (statement r) = r.grammar.introduce (Grammar.introduced? r.tokens) := by
  rw [statement_apply, full]
  unfold Grammar.introduced?
  cases r.tokens.current.kind with
  | keyword word =>
    cases word with
    | defWord => exact grammarAfter_functionDefinition r
    | externWord => exact grammarAfter_externalDeclaration r
    | _ => exact isStill_topLevelExpression r
  | _ => exact isStill_topLevelExpression r

/-- What is left of a statement that cannot be read. -/
theorem statement_error {r : SourceReader} (full : r.grammar.isBare = false) {e : InputError}
    {s : TokenStream} (run : r.grammar.statement r.tokens = .error e s) : statement r =
      .error e { grammar := r.grammar.introduce (Grammar.introduced? r.tokens), tokens := s } := by
  obtain ⟨g, failed⟩ := statement_follows.error run
  have after := grammarAfter_statement full
  rw [failed] at after ⊢
  obtain rfl : g = _ := after
  rfl

theorem grammarAfter_single {r : SourceReader} (full : r.grammar.isBare = false) :
    grammarAfter (single r) = r.grammar.introduce (Grammar.introduced? r.tokens) :=
  (grammarAfter_bind (fun _ => isStill_reading _) _).trans (grammarAfter_statement full)

end ParseUnit

/-- The operators that are known after a statement was read by itself. -/
theorem parse_repl_operators (level : Level) (operators : OperatorTable) (file : String)
    (tokens : List Token) : (parse level operators .repl file tokens).2 =
      (Grammar.introduce { level, operators }
        (Grammar.introduced? (.ofTokens file tokens))).operators := by
  have after := ParseUnit.grammarAfter_single
    (r := SourceReader.ofTokens { level, operators } file tokens) rfl
  unfold parse
  dsimp only
  cases run : ParseUnit.single (SourceReader.ofTokens { level, operators } file tokens) with
  | ok tree r =>
    rw [run] at after
    exact congrArg Grammar.operators after
  | error e r =>
    rw [run] at after
    exact congrArg Grammar.operators after

end OpenExpr
