import OpenExpr.Proofs.Placement.Session
import OpenExpr.Proofs.Registry.History

namespace OpenExpr

open Parse

/-- Behind every function of an operator that is known stands the operator. -/
def Environment.IsCoherent (env : Environment) : Prop :=
  ∀ name, (env.callee? name).isSome = true → env.operators.Admits name

theorem Environment.IsCoherent.alike {env : Environment} (coherent : env.IsCoherent) : env.Alike env where
  options := rfl
  anonymousCount := rfl
  declarations _ := rfl
  definitions _ := rfl
  admitted name known := ⟨coherent name known, coherent name known⟩

/-- Between two statements, with more operators known where the source is read as a
whole. -/
theorem Environment.IsCoherent.idle {env : Environment} (coherent : env.IsCoherent)
    {table : OperatorTable} (within : env.operators.Within table) : Resolver.Idle table env.operators
      { env := { env with operators := table } } { env } where
  env := coherent.alike.withOperators within (.refl _)
  body := Body.idle_empty
  operators := rfl
  operators' := rfl

theorem Environment.Alike.isCoherent {env env' : Environment} (alike : env.Alike env') :
    env.IsCoherent :=
  fun name known => (alike.admitted name known).1

theorem OperatorTable.AdmitsUnit.mono {table table' : OperatorTable} {t : SyntaxTree}
    (admits : table.AdmitsUnit t) (within : table.Within table') : table'.AdmitsUnit t :=
  fun other header first => (admits other header first).mono within

theorem TokenStream.alike_self {level : Level} {s : TokenStream} (lexed : AllLexed level s.pending) :
    s.Alike s where
  pending := lexed.alike rfl
  finish := Token.alike_end s.finish_kind rfl rfl

/-- A statement as sources write it, of which the operators admit what it makes known. -/
structure SyntaxTree.FitsIn (table : OperatorTable) (t : SyntaxTree) : Prop where
  form : t.IsUnit
  alike : t.Alike t
  admits : table.AdmitsUnit t

theorem SyntaxTree.FitsIn.mono {table table' : OperatorTable} {t : SyntaxTree} (fits : t.FitsIn table)
    (within : table.Within table') : t.FitsIn table' :=
  ⟨fits.form, fits.alike, fits.admits.mono within⟩

theorem Grammar.isBare_introduce (g : Grammar) (op? : Option OperatorDefinition) :
    (g.introduce op?).isBare = g.isBare := by
  cases op? <;> rfl

/-- What is read as a statement fits in once its operator is known. -/
theorem Grammar.fitsIn_statement (g : Grammar) {level : Level} {s s' : TokenStream}
    (lexed : AllLexed level s.pending) {a : SyntaxTree × Option OperatorDefinition}
    (run : g.statement s = .ok a s') : a.1.FitsIn (g.introduce a.2).operators := by
  have agree := g.blind_statement s s (TokenStream.alike_self lexed)
  have forms := (g.yields_statement.and g.yields_unitIntroduction) s lexed
  rw [run] at agree forms
  exact ⟨forms.1.1, agree.1.1, g.admitsUnit_introduce forms.1.1 agree.1.1 forms.1.2⟩

namespace SourceReader

variable {level : Level} {r : SourceReader}

/-- Operators are not forgotten, and what holds of each statement with the operators that it
leaves holds of all that is read of a source with those known at its end. -/
theorem of_mem_statements {P : OperatorTable → SyntaxTree → Prop}
    (mono : ∀ table table' t, P table t → table.Within table' → P table' t)
    (law : ∀ (g : Grammar) s a s', AllLexed level s.pending → g.statement s = .ok a s' →
      P (g.introduce a.2).operators a.1)
    (budget : Nat) (lexed : AllLexed level r.tokens.pending) (full : r.grammar.isBare = false) :
    r.grammar.operators.Within (statements budget r).2.grammar.operators ∧
      ∀ t ∈ (statements budget r).1,
        P (statements budget r).2.grammar.operators t ∨ t.kind = .error := by
  induction budget generalizing r with
  | zero => exact ⟨.refl _, by simp [statements]⟩
  | succ budget ih =>
    have later (r' : SourceReader) (trees : List SyntaxTree) (lexed : AllLexed level r'.tokens.pending)
        (full : r'.grammar.isBare = false)
        (within : r.grammar.operators.Within r'.grammar.operators)
        (each : ∀ t ∈ trees, P r'.grammar.operators t ∨ t.kind = .error) :
        r.grammar.operators.Within (statements budget r').2.grammar.operators ∧
          ∀ t ∈ trees ++ (statements budget r').1,
            P (statements budget r').2.grammar.operators t ∨ t.kind = .error := by
      obtain ⟨known, others⟩ := ih (r := r') lexed full
      refine ⟨within.trans known, List.forall_mem_append.mpr ⟨fun t member => ?_, others⟩⟩
      exact (each t member).imp_left fun good => mono _ _ _ good known
    have none : ∀ t ∈ ([] : List SyntaxTree), P r.grammar.operators t ∨ t.kind = .error := by simp
    have forward := r.grammar.yields_statement r.tokens lexed
    unfold statements
    split
    · exact ⟨.refl _, by simp⟩
    split
    · exact later r.skip [] lexed.advance full (.refl _) none
    cases run : r.grammar.statement r.tokens with
    | error e s =>
      rw [run] at forward
      simp only [ParseUnit.statement_error full run]
      let r' : SourceReader := { grammar := r.grammar.introduce (Grammar.introduced? r.tokens), tokens := s }
      exact later r'.synchronize [.ofError e] (allLexed_synchronize (s := s) forward.2)
        ((r.grammar.isBare_introduce _).trans full) (r.grammar.within_introduce _)
        (by simp [SyntaxTree.ofError])
    | ok a s =>
      rw [run] at forward
      have good := law r.grammar r.tokens a s lexed run
      have full' := (r.grammar.isBare_introduce a.2).trans full
      have within := r.grammar.within_introduce a.2
      let r' : SourceReader := { grammar := r.grammar.introduce a.2, tokens := s }
      simp only [ParseUnit.statement_follows.ok run]
      split
      · exact later r'.skip [a.1] forward.2.advance full' within (by simpa using .inl good)
      split
      · exact later r'.synchronize [a.1, .ofError _] (allLexed_synchronize (s := s) forward.2) full'
          within (by simpa [SyntaxTree.ofError] using .inl good)
      · exact ⟨within, by simpa using .inl good⟩

theorem fitsIn_of_mem_statements (budget : Nat) (lexed : AllLexed level r.tokens.pending)
    (full : r.grammar.isBare = false) :
    r.grammar.operators.Within (statements budget r).2.grammar.operators ∧
      ∀ t ∈ (statements budget r).1,
        t.FitsIn (statements budget r).2.grammar.operators ∨ t.kind = .error :=
  of_mem_statements (fun _ _ _ fits within => fits.mono within)
    (fun g _ _ _ lexed run => g.fitsIn_statement lexed run) budget lexed full

end SourceReader

theorem Resolver.idle_unit {table : OperatorTable} {r : Resolver} (idle : r.Idle table table r)
    {t : SyntaxTree} (read : t.FitsIn table ∨ t.kind = .error) :
    Resolver.Idle table table (r.unit t).2 (r.unit t).2 := by
  rcases read with fits | error
  · exact (unit_alike fits.alike fits.form idle fits.admits fits.admits).2
  · rwa [unit_of_error error]

theorem Resolver.idle_units {table : OperatorTable} {r : Resolver} (idle : r.Idle table table r)
    {ts : List SyntaxTree} (each : ∀ t ∈ ts, t.FitsIn table ∨ t.kind = .error) :
    Resolver.Idle table table (r.units ts).2 (r.units ts).2 := by
  induction ts generalizing r with
  | nil => exact idle
  | cons t ts ih =>
    obtain ⟨first, others⟩ := List.forall_mem_cons.mp each
    exact ih (idle_unit idle first) others

namespace Session

variable {s : Session}

theorem isCoherent_new (options : Options) : (new options).env.IsCoherent := by
  intro name known
  simp [Session.new, Environment.callee?] at known

theorem isCoherent_parseStatement (coherent : s.env.IsCoherent) (text : String) :
    (s.parseStatement text).2.env.IsCoherent :=
  (parseStatement_alike ⟨coherent.alike, rfl⟩ (.refl text.toList)).2.env.isCoherent

/-- Telling apart what is incomplete changes nothing. -/
theorem parse_session (s : Session) (text : String) : (s.parse text).2 = (s.parseStatement text).2 := by
  unfold parse parseStatement
  rcases s.syntaxTree .repl text with ⟨result | tree, s'⟩ <;> rfl

theorem isCoherent_parseSource (coherent : s.env.IsCoherent) (text : String) :
    (s.parseSource text).2.env.IsCoherent := by
  unfold parseSource syntaxTree
  cases run : tokenize s.env.options.level s.sourceName text with
  | error e => exact coherent
  | ok tokens =>
    let r := SourceReader.ofTokens { level := s.env.options.level, operators := s.env.operators }
      s.sourceName tokens
    have lexed : AllLexed s.env.options.level r.tokens.pending := allLexed_ofTokens run
    obtain ⟨within, each⟩ := SourceReader.fitsIn_of_mem_statements r.tokens.pending.length lexed rfl
    let known : Resolver := { env := { s.env with
      operators := (SourceReader.statements r.tokens.pending.length r).2.grammar.operators } }
    have idle : Resolver.Idle known.env.operators known.env.operators known known :=
      ⟨coherent.alike.withOperators within within, Body.idle_empty, rfl, rfl⟩
    exact (Resolver.idle_units idle each).env.isCoherent

theorem perform_statement_session (s : Session) (text : String) :
    (s.perform (.statement text)).2 = (s.parseStatement text).2 := by
  unfold perform
  dsimp only
  rcases s.parseStatement text with ⟨_ | _ | _, s'⟩ <;> rfl

theorem perform_source_session (s : Session) (text : String) :
    (s.perform (.source text)).2 = (s.parseSource text).2 := by
  unfold perform
  dsimp only
  rcases s.parseSource text with ⟨_ | _ | _ | _ | _, s'⟩ <;> rfl

/-- Commands lead from sessions that are coherent to no others. -/
theorem isCoherent_run (coherent : s.env.IsCoherent) (commands : List Command) :
    (s.run commands).2.env.IsCoherent := by
  induction commands generalizing s with
  | nil => exact coherent
  | cons c commands ih =>
    refine ih ?_
    cases c with
    | expression text => exact s.parse_session text ▸ isCoherent_parseStatement coherent text
    | statement text => exact s.perform_statement_session text ▸ isCoherent_parseStatement coherent text
    | source text => exact s.perform_source_session text ▸ isCoherent_parseSource coherent text

end Session

end OpenExpr
